import Winnow.Proofs.Pattern.Trying

/-!
# The preferred decomposition

Without constraints a pattern can be read without any matcher: its parts are given texts that make
up the path (`Decomposes`). There may be many ways to do so. They are compared part by part from the
left, where each kind of parameter has a taste of its own (`Kind.Prefers`), and the parameters of a
path are those of the decomposition that comes first (`extract_eq_preferred`).

The matcher tries its ways in the same order (`pairwise_precedes`), and leaves none out
(`exists_mem_ways_of_fits`), so that the first way that uses up the path is the best decomposition.
-/

namespace Winnow.Pattern

open Regex

/-! ## Decompositions and their order -/

/-- An assignment of texts to the parts of a pattern that make up a path. Parameters occur once in
a pattern, so that parts which are the same are literals, and these are given nothing. -/
structure Decomposes (p : Pattern) (d : Part → Choice) (id : List Char) : Prop where
  fits : ∀ part ∈ p.parts, part.Fits (d part)
  text : textOf p.parts d = id

/-- What a parameter would rather be given: a required one the shorter text, an optional one any
text rather than none and then the shorter one, a splat the longer one. -/
def Kind.Prefers : Kind → Choice → Choice → Prop
  | .required, some v, some w => v.length < w.length
  | .optional, some _, none => True
  | .optional, some v, some w => v.length < w.length
  | .splat, some v, some w => w.length < v.length
  | _, _, _ => False

def Part.Prefers : Part → Choice → Choice → Prop
  | .literal _, _, _ => False
  | .param q _, c, c' => q.kind.Prefers c c'

/-- The first part at which the assignments differ prefers the first one. -/
def Precedes (d d' : Part → Choice) : List Part → Prop
  | [] => False
  | part :: rest => part.Prefers (d part) (d' part) ∨ (d part = d' part ∧ Precedes d d' rest)

/-- A part whose parameter, if it is one, has no constraint. -/
def Part.Free (part : Part) : Prop := ∀ q fold, part = .param q fold → q.kind.constraint? = none

/-! ## Every decomposition is tried -/

theorem Fold.wrap_injective {fold : Fold} {v w : List Char} (h : fold.wrap v = fold.wrap w) :
    v = w := by
  cases fold with
  | none => exact h
  | before => exact (List.cons.inj h).2
  | after => exact List.append_cancel_right h

theorem Fold.length_wrap (fold : Fold) (v w : List Char) :
    (fold.wrap v).length < (fold.wrap w).length ↔ v.length < w.length := by
  cases fold <;> simp [Fold.wrap]

/-- The text of a part tells what it was given. -/
theorem Part.text_injective {part : Part} {c c' : Choice} (hc : part.Fits c) (hc' : part.Fits c')
    (h : part.text c = part.text c') : c = c' := by
  have hne : ∀ (q : Param) (fold : Fold) v, q.kind.isOptional = true → q.kind.Admits v →
      fold.wrap v ≠ [] := by
    intro q fold v hoptional hv hnil
    cases hkind : q.kind with
    | optional =>
        rw [hkind] at hv
        cases fold <;> simp_all [Fold.wrap, Kind.Admits]
    | _ =>
        rw [hkind] at hoptional
        cases hoptional
  cases part with
  | literal text => exact hc.trans hc'.symm
  | param q fold =>
      cases c with
      | none =>
          cases c' with
          | none => rfl
          | some w => exact absurd h.symm (hne q fold w hc hc')
      | some v =>
          cases c' with
          | none => exact absurd h (hne q fold v hc' hc)
          | some w => exact congrArg some (Fold.wrap_injective h)

theorem Part.tries_of_fits {part : Part} (hfree : part.Free) {c : Choice} (hc : part.Fits c) :
    part.Tries c := by
  cases part with
  | literal text => trivial
  | param q fold =>
      cases c with
      | none => exact hc
      | some v => exact Kind.tries_of_free (hfree q fold rfl) hc

/-- **No decomposition is left out**: every assignment that fits the text is one of the ways. -/
theorem exists_mem_ways_of_fits {parts : List Part} (hfree : ∀ part ∈ parts, part.Free)
    (hp : ∀ part ∈ parts, part.Proper) {s s' : Scope} {nodes : List Node}
    (h : partNodes true parts s = .ok (nodes, s')) {d : Part → Choice}
    (hd : ∀ part ∈ parts, part.Fits (d part)) {p : Place} (hnew : ∀ j ≥ s.next, p.group? j = none)
    {rest : List Char} (hafter : p.after = textOf parts d ++ rest) :
    ∃ q ∈ (Node.join nodes).ways p, q.after = rest ∧
      ∀ part ∈ parts, part.choice s'.names q = d part := by
  induction parts generalizing s nodes p with
  | nil =>
      cases h
      exact ⟨p, List.mem_singleton_self p, hafter, by simp⟩
  | cons part others ih =>
      obtain ⟨node, s₁, nodes', hpart, hothers, rfl⟩ := partNodes_cons h
      have hproper := hp part List.mem_cons_self
      have hp' : ∀ other ∈ others, other.Proper := fun other hother =>
        hp other (List.mem_cons_of_mem _ hother)
      have hfits := hd part List.mem_cons_self
      rw [textOf_cons, List.append_assoc] at hafter
      obtain ⟨m, hm, hrest⟩ :=
        exists_mem_ways_part hproper hpart
          (Part.tries_of_fits (hfree part List.mem_cons_self) hfits) hafter
      obtain ⟨c, hc⟩ := crossed_of_mem_ways hpart hproper hnew hm
      -- The way to `m` takes the text of the part, so the part was given just that.
      have hcd : c = d part := by
        refine Part.text_injective hc.fits hfits ?_
        have htext := hc.leads.after
        rw [hafter, hrest] at htext
        exact (List.append_cancel_right htext).symm
      obtain ⟨q, hq, hend, hchoices⟩ :=
        ih (fun other hother => hfree other (List.mem_cons_of_mem _ hother)) hp' hothers
          (fun other hother => hd other (List.mem_cons_of_mem _ hother)) hc.newer hrest
      refine ⟨q, ?_, hend, ?_⟩
      · rw [ways_join_cons]
        exact List.mem_flatMap.2 ⟨m, hm, hq⟩
      · intro other hother
        rcases List.mem_cons.1 hother with rfl | hother
        · have htail := tiled_of_mem_ways hothers hp' hc.newer hq
          rw [choice_eq_of_crossed hpart hproper (partNodes_grows hothers hp') hc htail.older, hcd]
        · exact hchoices other hother

/-! ## The order of the ways -/

theorem pairwise_ways_group {T : Place → Place → Prop} {i : Nat} {body : Node} {p : Place}
    (h : (body.ways p).Pairwise T)
    (hT : ∀ q q' v v', T q q' → T (q.capture i v) (q'.capture i v')) :
    ((Node.group i body).ways p).Pairwise T := by
  rw [Node.ways, List.pairwise_map]
  exact h.imp fun hqq' => hT _ _ _ _ hqq'

/-- A separator on either side does not change in which order values are tried. -/
theorem pairwise_ways_wrap {fold : Fold} {i : Nat} {body : Node}
    (h : ∀ p, (body.ways p).Pairwise fun q q' => q.position < q'.position) (p : Place) :
    ((wrapNode fold (.group i body)).ways p).Pairwise fun q q' => q.position < q'.position := by
  have hgroup : ∀ p, ((Node.group i body).ways p).Pairwise fun q q' => q.position < q'.position :=
    fun p => pairwise_ways_group (h p) fun _ _ _ _ hqq' => hqq'
  cases fold with
  | none => exact hgroup p
  | before =>
      show ((p.step? (· == separator)).toList.flatMap (Node.group i body).ways).Pairwise _
      cases p.step? (· == separator) with
      | none => exact .nil
      | some m =>
          rw [Option.toList_some, List.flatMap_singleton]
          exact hgroup m
  | after =>
      show (((Node.group i body).ways p).flatMap fun q =>
        (q.step? (· == separator)).toList).Pairwise _
      have hmoved : ∀ q q' : Place, q' ∈ (q.step? (· == separator)).toList →
          q'.position = q.position + 1 := by
        intro q q' hq'
        obtain ⟨c, -, hqq'⟩ := takes_of_step? (Option.mem_toList.1 hq')
        exact hqq'.leads.position
      rw [List.pairwise_flatMap]
      refine ⟨fun q _ => ?_, (hgroup p).imp fun hlt m hm m' hm' => ?_⟩
      · cases q.step? (· == separator) with
        | none => exact .nil
        | some m => exact List.pairwise_singleton _ _
      · rw [hmoved _ m hm, hmoved _ m' hm']
        omega

section Order

variable {part : Part} {s s' : Scope} {node : Node} {p : Place}

/-- Of two ways to match a part, the one that is tried first is what the part prefers. -/
def PrefersWays (part : Part) (s s' : Scope) (p q q' : Place) : Prop :=
  ∀ c c', part.Crossed s s' p c q → part.Crossed s s' p c' q' → part.Prefers c c'

/-- Where a group was captured, the part was given something. -/
theorem eq_some_of_mem_wrap {r : Param} {fold : Fold} {body : Node} {q : Place} {c : Choice}
    (hq : q ∈ (wrapNode fold (.group s.next body)).ways p)
    (hc : (Part.param r fold).Crossed s s' p c q) :
    ∃ v, c = some v ∧ q.position = p.position + (fold.wrap v).length := by
  obtain ⟨v, hpq, hv, -⟩ := wrapped_of_mem_ways hq
  refine ⟨v, ?_, hpq.position⟩
  rw [← hc.value r fold rfl, hv]

/-- Shorter values end at earlier places. -/
theorem prefersWays_of_position_lt {r : Param} {fold : Fold} {body : Node} {q q' : Place}
    (hq : q ∈ (wrapNode fold (.group s.next body)).ways p)
    (hq' : q' ∈ (wrapNode fold (.group s.next body)).ways p)
    (hkind : ∀ v v' : List Char, v.length < v'.length → r.kind.Prefers (some v) (some v'))
    (hlt : q.position < q'.position) : PrefersWays (.param r fold) s s' p q q' := by
  intro c c' hc hc'
  obtain ⟨v, rfl, hv⟩ := eq_some_of_mem_wrap hq hc
  obtain ⟨v', rfl, hv'⟩ := eq_some_of_mem_wrap hq' hc'
  refine hkind v v' ((fold.length_wrap v v').1 ?_)
  omega

theorem pairwise_prefers_part (hfree : part.Free) (hp : part.Proper)
    (h : partNode true part s = .ok (node, s')) (hnew : ∀ j ≥ s.next, p.group? j = none) :
    (node.ways p).Pairwise (PrefersWays part s s' p) := by
  cases hp with
  | literal text =>
      cases h
      -- A literal has one way at most, so there is nothing to put in order.
      have hlength : ((Node.join (text.toList.map .char)).ways p).length ≤ 1 :=
        length_ways_literal_le text.toList p
      show ((Node.join (text.toList.map .char)).ways p).Pairwise _
      generalize (Node.join (text.toList.map .char)).ways p = qs at hlength ⊢
      rcases qs with _ | ⟨q, _ | ⟨q', qs⟩⟩
      · exact .nil
      · exact List.pairwise_singleton _ _
      · simp at hlength
  | param r fold hfold hread =>
      obtain ⟨-, body, s₁, hvalue, hnode, -⟩ := partNode_param h
      have hunfolded : ¬ r.kind.isOptional = true → node = wrapNode fold (.group s.next body) := by
        intro hkind
        rw [hnode, foldNode_eq, if_neg hkind, Decidable.not_imp_symm hfold hkind]
        rfl
      cases hkind : r.kind with
      | required =>
          rw [hkind] at hvalue
          cases hvalue
          rw [hunfolded (by rw [hkind]; exact Bool.false_ne_true)]
          refine (pairwise_ways_wrap pairwise_ways_segment p).imp_of_mem fun hq hq' hlt => ?_
          exact prefersWays_of_position_lt hq hq' (by rw [hkind]; exact fun _ _ h => h) hlt
      | optional =>
          rw [hkind] at hvalue
          cases hvalue
          rw [hnode, foldNode_eq, hkind, if_pos (show Kind.optional.isOptional = true from rfl),
            ways_optionally, List.pairwise_append]
          refine ⟨?_, List.pairwise_singleton _ _, ?_⟩
          · refine (pairwise_ways_wrap pairwise_ways_segment p).imp_of_mem fun hq hq' hlt => ?_
            exact prefersWays_of_position_lt hq hq' (by rw [hkind]; exact fun _ _ h => h) hlt
          · -- At the last way, which takes nothing, the parameter is absent.
            intro q hq q' hq' c c' hc hc'
            obtain ⟨v, rfl, -⟩ := eq_some_of_mem_wrap hq hc
            have habsent : c' = none := by
              rw [← hc'.value r fold rfl, List.mem_singleton.1 hq']
              exact hnew s.next (Nat.le_refl _)
            rw [habsent, Part.Prefers, hkind]
            trivial
      | splat =>
          rw [hkind] at hvalue
          cases hvalue
          rw [hunfolded (by rw [hkind]; exact Bool.false_ne_true)]
          obtain rfl : fold = .none :=
            Decidable.not_imp_symm hfold (by rw [hkind]; exact Bool.false_ne_true)
          -- A splat takes as much as it can, so its ways go backwards.
          have hgroup : ((Node.group s.next anyRest).ways p).Pairwise
              fun q q' => q'.position < q.position :=
            pairwise_ways_group (pairwise_ways_anyRest p) fun _ _ _ _ hqq' => hqq'
          refine hgroup.imp_of_mem fun hq hq' hlt c c' hc hc' => ?_
          obtain ⟨v, rfl, hv⟩ := eq_some_of_mem_wrap hq hc
          obtain ⟨v', rfl, hv'⟩ := eq_some_of_mem_wrap hq' hc'
          rw [Part.Prefers, hkind]
          refine (Fold.length_wrap .none v' v).1 ?_
          omega
      | constrained c =>
          have := hfree r fold rfl
          rw [hkind] at this
          cases this

end Order

/-- **The ways are tried in the order of the decompositions.** -/
theorem pairwise_precedes {parts : List Part} (hfree : ∀ part ∈ parts, part.Free)
    (hp : ∀ part ∈ parts, part.Proper) {s s' : Scope} {nodes : List Node}
    (h : partNodes true parts s = .ok (nodes, s')) {p : Place}
    (hnew : ∀ j ≥ s.next, p.group? j = none) :
    ((Node.join nodes).ways p).Pairwise fun q q' =>
      Precedes (Part.choice s'.names q) (Part.choice s'.names q') parts := by
  induction parts generalizing s nodes p with
  | nil =>
      cases h
      exact List.pairwise_singleton _ _
  | cons part others ih =>
      obtain ⟨node, s₁, nodes', hpart, hothers, rfl⟩ := partNodes_cons h
      have hproper := hp part List.mem_cons_self
      have hp' : ∀ other ∈ others, other.Proper := fun other hother =>
        hp other (List.mem_cons_of_mem _ hother)
      -- What the first part is given is settled by its own way, whatever the others do behind it.
      have hcrossed : ∀ m ∈ node.ways p, ∃ c, part.Crossed s s₁ p c m ∧
          ∀ q ∈ (Node.join nodes').ways m, part.choice s'.names q = c := by
        intro m hm
        obtain ⟨c, hc⟩ := crossed_of_mem_ways hpart hproper hnew hm
        refine ⟨c, hc, fun q hq => ?_⟩
        have htail := tiled_of_mem_ways hothers hp' hc.newer hq
        exact choice_eq_of_crossed hpart hproper (partNodes_grows hothers hp') hc htail.older
      rw [ways_join_cons, List.pairwise_flatMap]
      constructor
      · -- Behind one way of the first part the others decide.
        intro m hm
        obtain ⟨c, hc, hchoice⟩ := hcrossed m hm
        have hrest := ih (fun other hother => hfree other (List.mem_cons_of_mem _ hother)) hp'
          hothers hc.newer
        refine hrest.imp_of_mem fun hq hq' hprecedes => .inr ⟨?_, hprecedes⟩
        rw [hchoice _ hq, hchoice _ hq']
      · -- Between two ways of the first part it decides itself.
        have hfirst := pairwise_prefers_part (hfree part List.mem_cons_self) hproper hpart hnew
        refine hfirst.imp_of_mem fun {m m'} hm hm' hprefers q hq q' hq' => .inl ?_
        obtain ⟨c, hc, hchoice⟩ := hcrossed m hm
        obtain ⟨c', hc', hchoice'⟩ := hcrossed m' hm'
        rw [hchoice q hq, hchoice' q' hq']
        exact hprefers c c' hc hc'

/-! ## The decomposition that is found -/

/-- Without constraints every value may be handed out. -/
theorem all_isClean_of_free {parts : List Part} (hfree : ∀ part ∈ parts, part.Free)
    (d : Part → Choice) : (parts.all fun part => part.isClean (d part)) = true := by
  refine List.all_eq_true.2 fun part hpart => ?_
  cases part with
  | literal text => rfl
  | param q fold =>
      have hnone := hfree _ hpart q fold rfl
      cases d (.param q fold) with
      | none => rfl
      | some v => simp [Part.isClean, hnone]

theorem precedes_congr {parts : List Part} {d e e' : Part → Choice}
    (h : ∀ part ∈ parts, e part = e' part) : Precedes d e parts ↔ Precedes d e' parts := by
  induction parts with
  | nil => rfl
  | cons part rest ih =>
      rw [Precedes, Precedes, h part List.mem_cons_self,
        ih fun other hother => h other (List.mem_cons_of_mem _ hother)]

/-- **The matcher computes the preferred decomposition.** The parameters of a path under a pattern
without constraints are those of the decomposition that comes before all others; a path without any
decomposition does not fit, and there is no third outcome. -/
theorem extract_eq_preferred {source : String} {p : Pattern} (h : compile source = .ok p)
    (hfree : ∀ q ∈ p.params, q.kind.constraint? = none) (id : String) :
    match p.extract id with
    | .ok none => ∀ d, ¬ Decomposes p d id.toList
    | .ok (some values) => ∃ d, Decomposes p d id.toList ∧ values = valuesOf p.parts d ∧
        ∀ d', Decomposes p d' id.toList →
          (∀ part ∈ p.parts, d part = d' part) ∨ Precedes d d' p.parts
    | .error _ => False := by
  obtain ⟨-, tokens, nodes, s, hmade⟩ := made_of_compile h
  have hparts : ∀ part ∈ p.parts, part.Free := by
    rintro part hpart q fold rfl
    exact hfree q (hmade.filterMap_param? ▸ List.mem_filterMap.2 ⟨_, hpart, rfl⟩)
  have hstart : ∀ j ≥ Scope.initial.next, (Place.start id.toList).group? j = none := fun _ _ => rfl
  -- Every decomposition is a way that uses up the path.
  have htried : ∀ d, Decomposes p d id.toList → ∃ q ∈ p.matcher.ways (.start id.toList),
      q.after = [] ∧ ∀ part ∈ p.parts, part.choice p.groups q = d part := by
    intro d hd
    rw [hmade.matcher, hmade.groups]
    refine exists_mem_ways_of_fits hparts hmade.proper hmade.read hd.fits hstart ?_
    rw [List.append_nil]
    exact hd.text.symm
  rw [hmade.extract_eq]
  cases hq : p.matcher.fullMatch id.toList with
  | none =>
      intro d hd
      obtain ⟨q, hmem, hend, -⟩ := htried d hd
      rw [fullMatch_eq_find?, List.find?_eq_none] at hq
      exact hq q hmem (List.isEmpty_iff.2 hend)
  | some q =>
      obtain ⟨hfits, htext⟩ := hmade.tiled hq
      rw [Option.bind_some, if_pos (all_isClean_of_free hparts _)]
      refine ⟨Part.choice p.groups q, ⟨hfits, htext⟩, rfl, fun d' hd' => ?_⟩
      obtain ⟨q', hmem, hend, hchoices⟩ := htried d' hd'
      have horder := pairwise_precedes hparts hmade.proper hmade.read hstart
      rw [← hmade.matcher, ← hmade.groups] at horder
      -- The ways before the one that was found do not use up the path.
      rw [fullMatch_eq_find?, List.find?_eq_some_iff_append] at hq
      obtain ⟨-, earlier, later, hways, hearlier⟩ := hq
      rw [hways] at hmem horder
      rcases List.mem_append.1 hmem with hbefore | hbehind
      · have := hearlier q' hbefore
        rw [hend] at this
        cases this
      · rcases List.mem_cons.1 hbehind with rfl | hbehind
        · exact .inl hchoices
        · right
          have hprecedes := (List.pairwise_cons.1 (List.pairwise_append.1 horder).2.1).1 q' hbehind
          rwa [precedes_congr hchoices] at hprecedes

/-- Two required parameters share the hyphens of a path: the first one takes as little as it can. -/
theorem extract_eq_preferred_hyphens :
    ∃ p, compile "\x7ba\x7d-\x7bb\x7d" = .ok p ∧ (∀ q ∈ p.params, q.kind.constraint? = none) ∧
      ∃ d, Decomposes p d "x-y-z".toList ∧ [("a", "x"), ("b", "y-z")] = valuesOf p.parts d ∧
        ∀ d', Decomposes p d' "x-y-z".toList →
          (∀ part ∈ p.parts, d part = d' part) ∨ Precedes d d' p.parts := by
  have hfacts : (compile "\x7ba\x7d-\x7bb\x7d").toOption.map (fun p =>
      (p.params.all (·.kind.constraint?.isNone), (p.extract "x-y-z").toOption)) =
      some (true, some (some [("a", "x"), ("b", "y-z")])) := by decide +kernel
  obtain ⟨p, hp, hfacts⟩ := exists_ok_of_toOption_map hfacts
  obtain ⟨hparams, hvalues⟩ := Prod.mk.inj hfacts
  have hfree : ∀ q ∈ p.params, q.kind.constraint? = none := fun q hq =>
    Option.isNone_iff_eq_none.1 (List.all_eq_true.1 hparams q hq)
  have hbest := extract_eq_preferred hp hfree "x-y-z"
  rw [eq_ok_of_toOption hvalues] at hbest
  exact ⟨p, hp, hfree, hbest⟩

end Winnow.Pattern
