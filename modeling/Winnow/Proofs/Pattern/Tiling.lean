import Winnow.Proofs.Pattern.Grammar
import Winnow.Proofs.Pattern.Pieces
import Winnow.Proofs.Regex.Numbering

/-!
# Matches tile the path

A match of a pattern gives each part of its layout a text, and these texts make up the path from
left to right: literals stand for themselves, a parameter for its value, together with the separator
that is folded into it. This module says what a part can be given (`Part.Fits`), and that whatever
the matcher of a pattern finds is such a tiling (`tiles_of_mem_ways`); the values are read off the
groups that bear the names of the parameters.
-/

namespace Winnow.Pattern

open Regex

/-! ## What a part may be given -/

/-- What a part is given: a value, if it is a parameter that is present. -/
abbrev Choice := Option (List Char)

/-- The texts that are values of a parameter. What a constraint takes depends on what follows; here
it is only said, for constraints that see nothing but the text they take, that something may follow
so that the constraint takes the value and leaves the rest. -/
def Kind.Admits : Kind → List Char → Prop
  | .required, v => v ≠ [] ∧ separator ∉ v
  | .optional, v => v ≠ [] ∧ separator ∉ v
  | .splat, v => '\n' ∉ v
  | .constrained c, v => ∀ node, read c.toList = .ok node → node.isLocal = true →
      ∃ rest, rest ∈ node.rests (v ++ rest)

/-- A value together with the separator that is folded into its parameter. -/
def Fold.wrap : Fold → List Char → List Char
  | .none, v => v
  | .before, v => separator :: v
  | .after, v => v ++ [separator]

namespace Part

/-- Whether a part may be given this. -/
def Fits : Part → Choice → Prop
  | .literal _, c => c = none
  | .param q _, none => q.kind.isOptional = true
  | .param q _, some v => q.kind.Admits v

/-- The text that a part stands for. -/
def text : Part → Choice → List Char
  | .literal t, _ => t.toList
  | .param _ _, none => []
  | .param _ fold, some v => fold.wrap v

/-- The parameter of a part. -/
def param? : Part → Option Param
  | .literal _ => none
  | .param q _ => some q

/-- What the layout of a pattern promises of its parts: only optional parameters take a separator
along, and constraints are expressions. -/
inductive Proper : Part → Prop
  | literal (text : String) : Proper (.literal text)
  | param (q : Param) (fold : Fold) (hfold : fold ≠ .none → q.kind.isOptional = true)
      (hread : ∀ c, q.kind = .constrained c → ∃ n, read c.toList = .ok n) : Proper (.param q fold)

/-- What a part is given at a place where a match ends: the text of the group that bears the name of
its parameter. -/
def choice (names : Assoc String Nat) (q : Place) : Part → Choice
  | .literal _ => none
  | .param r _ => (names.get? r.name).bind q.group?

end Part

/-- Whether a value may be handed out: a constraint may have taken nothing or a separator, which no
value may. -/
def Part.isClean : Part → Choice → Bool
  | .param q _, some v => !(q.kind.constraint?.isSome && (v.isEmpty || v.contains separator))
  | _, _ => true

/-- The values of the parameters that are present. -/
def valuesOf (parts : List Part) (d : Part → Choice) : Assoc String String :=
  parts.filterMap fun part =>
    part.param?.bind fun q => (d part).map fun v => (q.name, String.ofList v)

theorem valuesOf_param_none {q : Param} {fold : Fold} {parts : List Part} {d : Part → Choice}
    (h : d (.param q fold) = none) : valuesOf (.param q fold :: parts) d = valuesOf parts d := by
  simp [valuesOf, Part.param?, h]

theorem valuesOf_param_some {q : Param} {fold : Fold} {parts : List Part} {d : Part → Choice}
    {v : List Char} (h : d (.param q fold) = some v) :
    valuesOf (.param q fold :: parts) d = (q.name, String.ofList v) :: valuesOf parts d := by
  simp [valuesOf, Part.param?, h]

/-- The text of several parts. -/
def textOf (parts : List Part) (d : Part → Choice) : List Char :=
  parts.flatMap fun part => part.text (d part)

theorem textOf_cons (part : Part) (rest : List Part) (d : Part → Choice) :
    textOf (part :: rest) d = part.text (d part) ++ textOf rest d :=
  List.flatMap_cons

/-! ## Values -/

theorem valueNode_numbers {kind : Kind} {s s' : Scope} {node : Node}
    (h : valueNode kind s = .ok (node, s'))
    (hread : ∀ c, kind = .constrained c → ∃ n, read c.toList = .ok n) :
    s.Grows s' ∧ ∀ j ∈ node.groupNumbers, s.next ≤ j ∧ j < s'.next := by
  cases kind with
  | constrained c =>
      obtain ⟨alone, halone⟩ := hread c rfl
      obtain ⟨hg, halike⟩ := readInto_alike h halone
      exact ⟨hg, halike.numbers⟩
  | _ =>
      cases h
      exact ⟨.refl s, by rintro j ⟨⟩⟩

/-- **What is captured for a parameter is a value of it.** -/
theorem admits_of_mem_ways {kind : Kind} {s s' : Scope} {node : Node}
    (h : valueNode kind s = .ok (node, s')) {p q : Place} (hq : q ∈ node.ways p) :
    ∃ v, p.Leads v q ∧ kind.Admits v := by
  cases kind with
  | required =>
      cases h
      obtain ⟨v, hne, hv, hpq⟩ := takes_of_mem_ways_segment hq
      exact ⟨v, hpq.leads, hne, hv⟩
  | optional =>
      cases h
      obtain ⟨v, hne, hv, hpq⟩ := takes_of_mem_ways_segment hq
      exact ⟨v, hpq.leads, hne, hv⟩
  | splat =>
      cases h
      obtain ⟨v, hv, hpq⟩ := takes_of_mem_ways_anyRest hq
      exact ⟨v, hpq.leads, hv⟩
  | constrained c =>
      obtain ⟨v, hpq⟩ := exists_leads_of_mem_ways hq
      refine ⟨v, hpq, fun alone halone hlocal => ⟨q.after, ?_⟩⟩
      -- In place and alone the constraint leaves the same rests.
      obtain ⟨-, halike⟩ := readInto_alike h halone
      have hlocal' : node.isLocal = true := by
        rw [← isLocal_unnumbered, halike.shape, isLocal_unnumbered]
        exact hlocal
      rw [← rests_unnumbered, ← halike.shape, rests_unnumbered, ← hpq.after,
        ← map_after_ways hlocal']
      exact List.mem_map_of_mem hq

/-! ## One part -/

/-- The expression of a present value with the separator that is folded into it. -/
def wrapNode (fold : Fold) (value : Node) : Node :=
  match fold with
  | .none => value
  | .before => .seq (.char separator) value
  | .after => .seq value (.char separator)

theorem foldNode_eq (kind : Kind) (fold : Fold) (value : Node) :
    foldNode kind fold value =
      if kind.isOptional then optionally (wrapNode fold value) else value := by
  cases fold <;> rfl

/-- A group keeps the text that it takes, and with it changes only groups inside of it. -/
theorem captured_of_mem_ways {i : Nat} {body : Node} {p q : Place}
    (h : q ∈ (Node.group i body).ways p) :
    ∃ v, p.Leads v q ∧ q.group? i = some v ∧ (∃ m ∈ body.ways p, p.Leads v m) ∧
      ∀ j, j ≠ i → j ∉ body.groupNumbers → q.group? j = p.group? j := by
  rw [Node.ways] at h
  obtain ⟨m, hm, rfl⟩ := List.mem_map.1 h
  obtain ⟨v, hpm⟩ := exists_leads_of_mem_ways hm
  refine ⟨v, ⟨hpm.after, hpm.position⟩, ?_, ⟨m, hm, hpm⟩, fun j hj hbody => ?_⟩
  · rw [Place.group?_capture_self, hpm.taken]
  · rw [Place.group?_capture_of_ne hj, group?_of_mem_ways hbody hm]

theorem wrapped_of_mem_ways {fold : Fold} {i : Nat} {body : Node} {p q : Place}
    (h : q ∈ (wrapNode fold (.group i body)).ways p) :
    ∃ v, p.Leads (fold.wrap v) q ∧ q.group? i = some v ∧
      (∃ p', ∃ m ∈ body.ways p', p'.Leads v m) ∧
      ∀ j, j ≠ i → j ∉ body.groupNumbers → q.group? j = p.group? j := by
  cases fold with
  | none =>
      obtain ⟨v, hpq, hv, hbody, hother⟩ := captured_of_mem_ways h
      exact ⟨v, hpq, hv, ⟨p, hbody⟩, hother⟩
  | before =>
      obtain ⟨p', hp', hq⟩ := List.mem_flatMap.1 h
      obtain ⟨c, hc, hpp'⟩ := takes_of_step? (Option.mem_toList.1 hp')
      rw [beq_iff_eq.1 hc] at hpp'
      obtain ⟨v, hp'q, hv, hbody, hother⟩ := captured_of_mem_ways hq
      refine ⟨v, hpp'.leads.trans hp'q, hv, ⟨p', hbody⟩, fun j hj hj' => ?_⟩
      rw [hother j hj hj', hpp'.group?]
  | after =>
      obtain ⟨q', hq', hq⟩ := List.mem_flatMap.1 h
      obtain ⟨c, hc, hq'q⟩ := takes_of_step? (Option.mem_toList.1 hq)
      rw [beq_iff_eq.1 hc] at hq'q
      obtain ⟨v, hpq', hv, hbody, hother⟩ := captured_of_mem_ways hq'
      refine ⟨v, hpq'.trans hq'q.leads, ?_, ⟨p, hbody⟩, fun j hj hj' => ?_⟩
      · rw [hq'q.group?, hv]
      · rw [hq'q.group?, hother j hj hj']

/-- How a parameter is read into a scope: its name is new, its group gets the next number, and the
groups inside its value come after it. -/
theorem partNode_param {q : Param} {fold : Fold} {s s' : Scope} {node : Node}
    (h : partNode true (.param q fold) s = .ok (node, s')) :
    s.names.get? q.name = none ∧ ∃ body s₁,
      valueNode q.kind { s with next := s.next + 1, names := s.names.insert q.name s.next } =
        .ok (body, s₁) ∧
      node = foldNode q.kind fold (.group s.next body) ∧
      s' = { s₁ with closed := s₁.closed.insert s.next (s₁.width body) } := by
  rw [partNode, if_pos rfl] at h
  by_cases hname : s.names.contains q.name = true
  · rw [capturing, if_pos hname] at h
    cases h
  · rw [capturing, if_neg hname] at h
    cases hvalue : valueNode q.kind
        { s with next := s.next + 1, names := s.names.insert q.name s.next } with
    | error e =>
        simp only [hvalue] at h
        cases h
    | ok x =>
        simp only [hvalue] at h
        cases h
        refine ⟨?_, x.1, x.2, rfl, rfl, rfl⟩
        simpa [Assoc.contains] using hname

theorem partNode_grows {part : Part} {s s' : Scope} {node : Node}
    (h : partNode true part s = .ok (node, s')) (hp : part.Proper) :
    s.Grows s' ∧ ∀ r fold, part = .param r fold →
      s'.names.get? r.name = some s.next ∧ s.next < s'.next := by
  cases hp with
  | literal text =>
      cases h
      exact ⟨.refl s, by rintro r fold ⟨⟩⟩
  | param q fold _ hread =>
      obtain ⟨hnew, body, s₁, hvalue, -, rfl⟩ := partNode_param h
      obtain ⟨hg, -⟩ := valueNode_numbers hvalue hread
      have hnext : s.next + 1 ≤ s₁.next := hg.next
      have hopened : s.Grows { s with next := s.next + 1, names := s.names.insert q.name s.next } :=
        Scope.grows_insert (by rw [Assoc.contains, hnew]; rfl) _ (Nat.le_succ _) _
      refine ⟨(hopened.trans hg).trans (Scope.grows_close s₁ _ _), ?_⟩
      rintro r fold ⟨⟩
      exact ⟨hg.names q.name s.next (Assoc.get?_insert_self _ _ _), by dsimp only; omega⟩

/-- What holds after a part was matched from `p` to `q`, between two scopes: the part was given `c`,
and the groups that belong to other parts are as they were. -/
structure Part.Crossed (part : Part) (s s' : Scope) (p : Place) (c : Choice) (q : Place) :
    Prop where
  fits : part.Fits c
  leads : p.Leads (part.text c) q
  older : ∀ j < s.next, q.group? j = p.group? j
  newer : ∀ j ≥ s'.next, q.group? j = none
  value : ∀ r fold, part = .param r fold → q.group? s.next = c

theorem crossed_of_mem_ways {part : Part} {s s' : Scope} {node : Node}
    (h : partNode true part s = .ok (node, s')) (hp : part.Proper) {p q : Place}
    (hfree : ∀ j ≥ s.next, p.group? j = none) (hq : q ∈ node.ways p) :
    ∃ c, part.Crossed s s' p c q := by
  cases hp with
  | literal text =>
      cases h
      have hpq := takes_of_mem_ways_literal hq
      refine ⟨none, ⟨rfl, hpq.leads, fun j _ => hpq.group? j, fun j hj => ?_, by rintro r fold ⟨⟩⟩⟩
      rw [hpq.group?, hfree j hj]
  | param r fold hfold hread =>
      obtain ⟨-, body, s₁, hvalue, rfl, rfl⟩ := partNode_param h
      obtain ⟨hg, hnumbers⟩ := valueNode_numbers hvalue hread
      have hnext : s.next + 1 ≤ s₁.next := hg.next
      have hpresent : q ∈ (wrapNode fold (.group s.next body)).ways p →
          ∃ c, (Part.param r fold).Crossed s
            { s₁ with closed := s₁.closed.insert s.next (s₁.width body) } p c q := by
        intro hq
        obtain ⟨v, hpq, hv, ⟨p', m, hm, hp'm⟩, hother⟩ := wrapped_of_mem_ways hq
        obtain ⟨w, hp'w, hw⟩ := admits_of_mem_ways hvalue hm
        have hwv : w = v := by rw [← hp'w.taken, hp'm.taken]
        -- The groups of the value lie between the group of the parameter and those of later parts.
        have hbody : ∀ j, j < s.next + 1 ∨ s₁.next ≤ j → j ∉ body.groupNumbers := by
          intro j hj hmem
          have := hnumbers j hmem
          dsimp only at this
          omega
        refine ⟨some v, ⟨hwv ▸ hw, hpq, fun j hj => ?_, fun j hj => ?_, fun _ _ _ => hv⟩⟩
        · exact hother j (by omega) (hbody j (.inl (by omega)))
        · have hj : s₁.next ≤ j := hj
          rw [hother j (by omega) (hbody j (.inr hj))]
          exact hfree j (by omega)
      rw [foldNode_eq] at hq
      by_cases hoptional : r.kind.isOptional = true
      · rw [if_pos hoptional, ways_optionally] at hq
        rcases List.mem_append.1 hq with hq | hq
        · exact hpresent hq
        · -- The last way is the one on which the parameter is absent.
          rw [List.mem_singleton.1 hq]
          refine ⟨none, ⟨hoptional, .refl p, fun j _ => rfl, fun j hj => hfree j ?_, ?_⟩⟩
          · have hj : s₁.next ≤ j := hj
            omega
          · intro _ _ _
            exact hfree s.next (Nat.le_refl _)
      · rw [if_neg hoptional] at hq
        obtain rfl : fold = .none := Decidable.not_imp_symm hfold hoptional
        exact hpresent hq

/-! ## All parts -/

theorem partNodes_cons {capture : Bool} {part : Part} {rest : List Part} {s s'' : Scope}
    {nodes : List Node} (h : partNodes capture (part :: rest) s = .ok (nodes, s'')) :
    ∃ node s' nodes', partNode capture part s = .ok (node, s') ∧
      partNodes capture rest s' = .ok (nodes', s'') ∧ nodes = node :: nodes' := by
  rw [partNodes] at h
  cases hpart : partNode capture part s with
  | error e =>
      rw [hpart] at h
      cases h
  | ok x =>
      rw [hpart] at h
      cases hrest : partNodes capture rest x.2 with
      | error e =>
          simp only [bind, Except.bind, hrest] at h
          cases h
      | ok y =>
          simp only [bind, Except.bind, hrest] at h
          cases h
          exact ⟨x.1, x.2, y.1, rfl, hrest, rfl⟩

theorem partNodes_grows {parts : List Part} {s s' : Scope} {nodes : List Node}
    (h : partNodes true parts s = .ok (nodes, s')) (hp : ∀ part ∈ parts, part.Proper) :
    s.Grows s' := by
  induction parts generalizing s nodes with
  | nil =>
      cases h
      exact .refl _
  | cons part rest ih =>
      obtain ⟨node, s₁, nodes', hpart, hrest, -⟩ := partNodes_cons h
      have hfirst := (partNode_grows hpart (hp part List.mem_cons_self)).1
      exact hfirst.trans (ih hrest fun other hother => hp other (List.mem_cons_of_mem _ hother))

/-- What a part was given is still there at the end: later parts have later groups, and the names
keep their numbers. -/
theorem choice_eq_of_crossed {part : Part} {s s₁ s' : Scope} {node : Node} {p m q : Place}
    {c : Choice} (h : partNode true part s = .ok (node, s₁)) (hp : part.Proper)
    (hg : s₁.Grows s') (hc : part.Crossed s s₁ p c m)
    (hlater : ∀ j < s₁.next, q.group? j = m.group? j) :
    part.choice s'.names q = c := by
  obtain ⟨-, hparam⟩ := partNode_grows h hp
  cases part with
  | literal text => exact hc.fits.symm
  | param r fold =>
      obtain ⟨hname, hnext⟩ := hparam r fold rfl
      rw [Part.choice, hg.names r.name s.next hname, Option.bind_some, hlater s.next hnext]
      exact hc.value r fold rfl

/-- What holds after all parts were matched from `p` to `q`. -/
structure Tiled (parts : List Part) (s s' : Scope) (p q : Place) : Prop where
  fits : ∀ part ∈ parts, part.Fits (part.choice s'.names q)
  leads : p.Leads (textOf parts (Part.choice s'.names q)) q
  older : ∀ j < s.next, q.group? j = p.group? j

/-- **Matches are tilings.** Wherever the expression of a layout ends, its parts have been given
what fits them, and their texts are what was taken, from left to right. -/
theorem tiled_of_mem_ways {parts : List Part} {s s' : Scope} {nodes : List Node}
    (h : partNodes true parts s = .ok (nodes, s')) (hp : ∀ part ∈ parts, part.Proper) {p q : Place}
    (hfree : ∀ j ≥ s.next, p.group? j = none) (hq : q ∈ (Node.join nodes).ways p) :
    Tiled parts s s' p q := by
  induction parts generalizing s nodes p with
  | nil =>
      cases h
      rw [List.mem_singleton.1 hq]
      exact ⟨by simp, .refl p, fun j _ => rfl⟩
  | cons part rest ih =>
      obtain ⟨node, s₁, nodes', hpart, hrest, rfl⟩ := partNodes_cons h
      have hp' : ∀ other ∈ rest, other.Proper := fun other hother =>
        hp other (List.mem_cons_of_mem _ hother)
      have hproper := hp part List.mem_cons_self
      rw [ways_join_cons] at hq
      obtain ⟨m, hm, hq⟩ := List.mem_flatMap.1 hq
      obtain ⟨c, hc⟩ := crossed_of_mem_ways hpart hproper hfree hm
      -- The other parts start out from a place that knows none of their groups.
      have htail := ih hrest hp' hc.newer hq
      have hchoice := choice_eq_of_crossed hpart hproper (partNodes_grows hrest hp') hc htail.older
      refine ⟨?_, ?_, ?_⟩
      · intro other hother
        rcases List.mem_cons.1 hother with rfl | hother
        · rw [hchoice]
          exact hc.fits
        · exact htail.fits other hother
      · rw [textOf_cons, hchoice]
        exact hc.leads.trans htail.leads
      · intro j hj
        have hnext := (partNode_grows hpart hproper).1.next
        rw [htail.older j (Nat.lt_of_lt_of_le hj hnext), hc.older j hj]

/-! ## Compiled patterns -/

theorem filterMap_param?_literalPart (text : List Char) :
    (literalPart text).filterMap Part.param? = [] := by
  rw [literalPart]
  split <;> rfl

/-- The layout moves separators only: its parameters are those of the tokens. -/
theorem filterMap_param?_layout (tokens : List Token) :
    (layout tokens).filterMap Part.param? = paramsOf tokens := by
  fun_induction layout tokens <;>
    simp_all [paramsOf, Part.param?, filterMap_param?_literalPart]

theorem proper_of_mem_layout {tokens : List Token}
    (h : ∀ q ∈ paramsOf tokens, ∀ c, q.kind = .constrained c → ∃ n, read c.toList = .ok n)
    {part : Part} (hpart : part ∈ layout tokens) : part.Proper := by
  cases part with
  | literal text => exact .literal text
  | param q fold =>
      have hq : q ∈ paramsOf tokens := by
        rw [← filterMap_param?_layout]
        exact List.mem_filterMap.2 ⟨_, hpart, rfl⟩
      refine .param q fold (fun hfold => ?_) (h q hq)
      clear h hq
      fun_induction layout tokens with
      | case2 text r rest t ht hoptional ih =>
          simp_all [literalPart]
          rcases hpart with ⟨rfl, -⟩ | hrest
          · exact ht
          · exact ih hrest
      | case5 r text rest t ht hoptional ih =>
          rcases List.mem_cons.1 hpart with he | hrest
          · cases he
            exact ht
          · exact ih hrest
      | _ => simp_all [literalPart]

/-- How a pattern was made: from tokens, through their layout, whose parts were read one after the
other into one scope. -/
structure Made (p : Pattern) (tokens : List Token) (nodes : List Node) (s : Scope) : Prop where
  tokenized : tokenize p.source = .ok tokens
  parts : p.parts = layout tokens
  params : p.params = paramsOf tokens
  read : partNodes true p.parts .initial = .ok (nodes, s)
  matcher : p.matcher = Node.join nodes
  groups : p.groups = s.names
  constraints : p.constraints = constraintNodes p.params

theorem made_of_compile {source : String} {p : Pattern} (h : compile source = .ok p) :
    p.source = source ∧ ∃ tokens nodes s, Made p tokens nodes s := by
  obtain ⟨tokens, htokens, h⟩ := bind_eq_ok.1 h
  split at h
  · cases h
  · dsimp only at h
    split at h
    · cases h
    · obtain ⟨⟨matcher, groups⟩, hmatcher, h⟩ := bind_eq_ok.1 h
      obtain ⟨⟨validator, _⟩, -, h⟩ := bind_eq_ok.1 h
      cases h
      obtain ⟨⟨nodes, s⟩, hnodes, hrest⟩ := bind_eq_ok.1 (mapError_eq_ok.1 hmatcher)
      obtain ⟨-, -, hrest⟩ := bind_eq_ok.1 hrest
      cases hrest
      exact ⟨rfl, tokens, nodes, s, htokens, rfl, rfl, hnodes, rfl, rfl, rfl⟩

/-! ## Reading the values -/

/-- Collecting never fails after a match, since a parameter without a group is optional; it yields
the values of the parts, unless one of them may not be handed out. -/
theorem collect_eq {p : Pattern} {id : String} {place : Place} {parts : List Part}
    (h : ∀ part ∈ parts, part.Fits (part.choice p.groups place)) :
    p.collect id place (parts.filterMap Part.param?) =
      .ok (if parts.all fun part => part.isClean (part.choice p.groups place) then
        some (valuesOf parts (Part.choice p.groups place)) else none) := by
  induction parts with
  | nil => rfl
  | cons part rest ih =>
      have hrest := ih fun other hother => h other (List.mem_cons_of_mem _ hother)
      have hfits := h part List.mem_cons_self
      cases part with
      | literal text => exact hrest
      | param q fold =>
          have hlookup : (p.groups.get? q.name).bind place.group? =
              (Part.param q fold).choice p.groups place := rfl
          show p.collect id place (q :: rest.filterMap Part.param?) = _
          rw [collect, hlookup]
          cases hc : (Part.param q fold).choice p.groups place with
          | none =>
              rw [hc] at hfits
              have hoptional : q.kind.isOptional = true := hfits
              have hclean : (Part.param q fold).isClean none = true := rfl
              simp only [hoptional, if_true, hrest, List.all_cons, hc, hclean, Bool.true_and,
                valuesOf_param_none hc]
          | some v =>
              rw [List.all_cons, hc, valuesOf_param_some hc]
              have hclean : (Part.param q fold).isClean (some v) =
                  !(q.kind.constraint?.isSome && (v.isEmpty || v.contains separator)) := rfl
              dsimp only
              by_cases hv :
                  (q.kind.constraint?.isSome && (v.isEmpty || v.contains separator)) = true
              · rw [if_pos hv, hclean, hv]
                rfl
              · rw [if_neg hv, hrest, hclean, (Bool.not_eq_true _).mp hv]
                cases rest.all fun part => part.isClean (part.choice p.groups place) <;> rfl

/-- The names of parameters are new when they are read, so they are all different. -/
theorem nodup_names_of_partNodes {parts : List Part} {s s' : Scope} {nodes : List Node}
    (h : partNodes true parts s = .ok (nodes, s')) (hp : ∀ part ∈ parts, part.Proper) :
    ((parts.filterMap Part.param?).map Param.name).Nodup ∧
      ∀ q ∈ parts.filterMap Part.param?, s.names.get? q.name = none := by
  induction parts generalizing s nodes with
  | nil => exact ⟨.nil, by rintro q ⟨⟩⟩
  | cons part rest ih =>
      obtain ⟨node, s₁, nodes', hpart, hrest, -⟩ := partNodes_cons h
      have hproper := hp part List.mem_cons_self
      obtain ⟨hg, hparam⟩ := partNode_grows hpart hproper
      obtain ⟨hnodup, hnew⟩ := ih hrest fun other hother => hp other (List.mem_cons_of_mem _ hother)
      have hold : ∀ q ∈ rest.filterMap Part.param?, s.names.get? q.name = none := by
        intro q hq
        cases hname : s.names.get? q.name with
        | none => rfl
        | some i =>
            have := hnew q hq
            rw [hg.names q.name i hname] at this
            cases this
      cases part with
      | literal text => exact ⟨hnodup, hold⟩
      | param q fold =>
          refine ⟨List.nodup_cons.2 ⟨?_, hnodup⟩, ?_⟩
          · intro hmem
            obtain ⟨r, hr, hname⟩ := List.mem_map.1 hmem
            have := hnew r hr
            rw [hname, (hparam q fold rfl).1] at this
            cases this
          · intro r hr
            rcases List.mem_cons.1 hr with rfl | hr
            · exact (partNode_param hpart).1
            · exact hold r hr

namespace Made

variable {p : Pattern} {tokens : List Token} {nodes : List Node} {s : Scope}

theorem proper (h : Made p tokens nodes s) : ∀ part ∈ p.parts, part.Proper := by
  obtain ⟨hfollows, -⟩ := follows_of_tokensFrom (by simp) h.tokenized
  rw [h.parts]
  exact fun part hpart => proper_of_mem_layout
    (fun q hq c hc => ((hfollows.params hq).1.constraint c hc).2) hpart

theorem filterMap_param? (h : Made p tokens nodes s) :
    p.parts.filterMap Part.param? = p.params := by
  rw [h.parts, h.params, filterMap_param?_layout]

theorem mem_params (h : Made p tokens nodes s) {q : Param} {fold : Fold}
    (hq : .param q fold ∈ p.parts) : q ∈ p.params :=
  h.filterMap_param? ▸ List.mem_filterMap.2 ⟨_, hq, rfl⟩

theorem exists_part_of_mem_params (h : Made p tokens nodes s) {q : Param} (hq : q ∈ p.params) :
    ∃ fold, .param q fold ∈ p.parts := by
  obtain ⟨part, hpart, hparam⟩ := List.mem_filterMap.1 (h.filterMap_param? ▸ hq)
  cases part with
  | literal text => cases hparam
  | param r fold =>
      cases hparam
      exact ⟨fold, hpart⟩

theorem nodup_names (h : Made p tokens nodes s) : (p.params.map Param.name).Nodup := by
  rw [← h.filterMap_param?]
  exact (nodup_names_of_partNodes h.read h.proper).1

/-- A full match tiles the whole path. -/
theorem tiled (h : Made p tokens nodes s) {id : List Char} {q : Place}
    (hq : p.matcher.fullMatch id = some q) :
    (∀ part ∈ p.parts, part.Fits (part.choice p.groups q)) ∧
      textOf p.parts (Part.choice p.groups q) = id := by
  rw [fullMatch_eq_find?, h.matcher] at hq
  have hend : q.after = [] := by simpa using List.find?_some hq
  have htiled := tiled_of_mem_ways h.read h.proper (fun j _ => rfl) (List.mem_of_find?_eq_some hq)
  rw [h.groups]
  refine ⟨htiled.fits, ?_⟩
  have htext := htiled.leads.after
  rw [hend, List.append_nil] at htext
  exact htext.symm

/-- Extraction never fails: what the matcher finds is handed out, unless some value may not be. -/
theorem extract_eq (h : Made p tokens nodes s) (id : String) :
    p.extract id = .ok ((p.matcher.fullMatch id.toList).bind fun q =>
      if p.parts.all fun part => part.isClean (part.choice p.groups q) then
        some (valuesOf p.parts (Part.choice p.groups q)) else none) := by
  rw [extract]
  cases hq : p.matcher.fullMatch id.toList with
  | none => rfl
  | some q =>
      dsimp only
      rw [← h.filterMap_param?]
      exact collect_eq (h.tiled hq).1

/-- What is extracted are the values of a tiling of the whole path. -/
theorem exists_tiling (h : Made p tokens nodes s) {id : String} {values : Assoc String String}
    (hv : p.extract id = .ok (some values)) :
    ∃ d : Part → Choice, (∀ part ∈ p.parts, part.Fits (d part)) ∧
      (∀ part ∈ p.parts, part.isClean (d part) = true) ∧ textOf p.parts d = id.toList ∧
      values = valuesOf p.parts d := by
  rw [h.extract_eq] at hv
  obtain ⟨q, hq, hv⟩ := Option.bind_eq_some_iff.1 (Except.ok.inj hv)
  obtain ⟨hfits, htext⟩ := h.tiled hq
  split at hv
  next hclean =>
      exact ⟨_, hfits, List.all_eq_true.1 hclean, htext, (Option.some.inj hv).symm⟩
  next => cases hv

end Made

end Winnow.Pattern
