import Winnow.Proofs.Pattern.Tiling
import Winnow.Proofs.Regex.Cutting

/-!
# What the search tries

The matcher of a pattern can only hand out what its search comes across. A parameter tries a value
if its expression takes it wherever it comes (`Kind.Tries`): one without constraint tries every
value that it admits, and one with a constraint that settles nothing tries every value that the
constraint takes alone. If all parts try what they are given, the search reaches the end of their
text (`exists_mem_ways_of_tries`), with groups as well as without them.
-/

namespace Winnow.Pattern

open Regex

/-- The parameter takes the value wherever it comes, and leaves what follows. -/
def Kind.Tries (kind : Kind) (v : List Char) : Prop :=
  ∀ s s' node, valueNode kind s = .ok (node, s') → ∀ (p : Place) (rest : List Char),
    p.after = v ++ rest → ∃ q ∈ node.ways p, q.after = rest

/-- The part tries what it is given. -/
def Part.Tries : Part → Choice → Prop
  | .literal _, _ => True
  | .param q _, none => q.kind.isOptional = true
  | .param q _, some v => q.kind.Tries v

/-! ## Values that are tried -/

/-- Every value of a parameter without constraint is tried. -/
theorem Kind.tries_of_free {kind : Kind} (hfree : kind.constraint? = none) {v : List Char}
    (hv : kind.Admits v) : kind.Tries v := by
  intro s s' node h p rest hp
  cases kind with
  | required =>
      cases h
      exact exists_mem_ways_segment hv.1 hv.2 hp
  | optional =>
      cases h
      exact exists_mem_ways_segment hv.1 hv.2 hp
  | splat =>
      cases h
      exact exists_mem_ways_anyRest hv hp
  | constrained c => cases hfree

/-- What a constraint that settles nothing takes alone it tries in the midst of a path too. -/
theorem Kind.tries_of_alone {c : String} {alone : Node} (halone : read c.toList = .ok alone)
    (hlocal : alone.isLocal = true) (hsettles : alone.settles = false) {v : List Char}
    (hv : (alone.fullMatch v).isSome = true) : (Kind.constrained c).Tries v := by
  intro s s' node h p rest hp
  obtain ⟨-, halike⟩ := readInto_alike h halone
  have hlocal' : node.isLocal = true := by
    rw [← isLocal_unnumbered, halike.shape, isLocal_unnumbered]
    exact hlocal
  have hrests : node.rests = alone.rests := by
    rw [← rests_unnumbered, halike.shape, rests_unnumbered]
  have hrest : rest ∈ (node.ways p).map Place.after := by
    rw [map_after_ways hlocal', hrests, hp]
    exact mem_rests_append hlocal hsettles rest ((isSome_fullMatch_iff hlocal v).1 hv)
  exact List.mem_map.1 hrest

/-! ## Parts that are tried -/

theorem exists_mem_ways_wrap {fold : Fold} {body : Node} {v rest : List Char}
    (hbody : ∀ (p : Place) rest, p.after = v ++ rest → ∃ q ∈ body.ways p, q.after = rest)
    {p : Place} (hp : p.after = fold.wrap v ++ rest) :
    ∃ q ∈ (wrapNode fold body).ways p, q.after = rest := by
  cases fold with
  | none => exact hbody p rest hp
  | before =>
      obtain ⟨m, hm, -, hafter⟩ := exists_step? (· == separator) hp (beq_self_eq_true _)
      obtain ⟨q, hq, hrest⟩ := hbody m rest hafter
      exact ⟨q, List.mem_flatMap.2 ⟨m, Option.mem_toList.2 hm, hq⟩, hrest⟩
  | after =>
      rw [Fold.wrap, List.append_assoc] at hp
      obtain ⟨m, hm, hafter⟩ := hbody p _ hp
      obtain ⟨q, hq, -, hrest⟩ := exists_step? (· == separator) hafter (beq_self_eq_true _)
      exact ⟨q, List.mem_flatMap.2 ⟨m, hm, Option.mem_toList.2 hq⟩, hrest⟩

/-- The expression of a parameter is that of its value, in a group or not, with the separator that
is folded into it. -/
theorem exists_value_of_partNode {capture : Bool} {q : Param} {fold : Fold} {s s' : Scope}
    {node : Node} (h : partNode capture (.param q fold) s = .ok (node, s')) :
    ∃ s₁ s₂ value body, valueNode q.kind s₁ = .ok (value, s₂) ∧
      node = foldNode q.kind fold body ∧ (body = value ∨ ∃ i, body = .group i value) := by
  cases capture with
  | true =>
      obtain ⟨-, value, s₂, hvalue, hnode, -⟩ := partNode_param h
      exact ⟨_, s₂, value, _, hvalue, hnode, .inr ⟨_, rfl⟩⟩
  | false =>
      obtain ⟨⟨value, s₂⟩, hvalue, h⟩ := bind_eq_ok.1 h
      cases h
      exact ⟨s, s', value, value, hvalue, rfl, .inl rfl⟩

theorem exists_mem_ways_part {capture : Bool} {part : Part} (hp : part.Proper) {s s' : Scope}
    {node : Node} (h : partNode capture part s = .ok (node, s')) {c : Choice} (hc : part.Tries c)
    {p : Place} {rest : List Char} (hafter : p.after = part.text c ++ rest) :
    ∃ q ∈ node.ways p, q.after = rest := by
  cases hp with
  | literal text =>
      cases h
      exact exists_mem_ways_literal hafter
  | param r fold hfold hread =>
      obtain ⟨s₁, s₂, value, body, hvalue, rfl, hbody⟩ := exists_value_of_partNode h
      rw [foldNode_eq]
      cases c with
      | none =>
          have hoptional : r.kind.isOptional = true := hc
          rw [if_pos hoptional, ways_optionally]
          exact ⟨p, List.mem_append_right _ (List.mem_singleton_self p), hafter⟩
      | some v =>
          have hvalues : ∀ (p : Place) rest, p.after = v ++ rest →
              ∃ q ∈ body.ways p, q.after = rest := by
            intro p rest hp
            obtain ⟨q, hq, hrest⟩ := hc s₁ s₂ value hvalue p rest hp
            rcases hbody with rfl | ⟨i, rfl⟩
            · exact ⟨q, hq, hrest⟩
            · exact ⟨_, List.mem_map.2 ⟨q, hq, rfl⟩, hrest⟩
          obtain ⟨q, hq, hrest⟩ := exists_mem_ways_wrap hvalues hafter
          by_cases hoptional : r.kind.isOptional = true
          · rw [if_pos hoptional, ways_optionally]
            exact ⟨q, List.mem_append_left _ hq, hrest⟩
          · obtain rfl : fold = .none := Decidable.not_imp_symm hfold hoptional
            rw [if_neg hoptional]
            exact ⟨q, hq, hrest⟩

/-- **The search reaches the end of every text whose parts are tried.** -/
theorem exists_mem_ways_of_tries {capture : Bool} {parts : List Part}
    (hp : ∀ part ∈ parts, part.Proper) {s s' : Scope} {nodes : List Node}
    (h : partNodes capture parts s = .ok (nodes, s')) {d : Part → Choice}
    (hd : ∀ part ∈ parts, part.Tries (d part)) {p : Place} {rest : List Char}
    (hafter : p.after = textOf parts d ++ rest) :
    ∃ q ∈ (Node.join nodes).ways p, q.after = rest := by
  induction parts generalizing s nodes p with
  | nil =>
      cases h
      exact ⟨p, List.mem_singleton_self p, hafter⟩
  | cons part others ih =>
      obtain ⟨node, s₁, nodes', hpart, hothers, rfl⟩ := partNodes_cons h
      rw [textOf_cons, List.append_assoc] at hafter
      obtain ⟨m, hm, hrest⟩ := exists_mem_ways_part (hp part List.mem_cons_self) hpart
        (hd part List.mem_cons_self) hafter
      obtain ⟨q, hq, hend⟩ := ih (fun other hother => hp other (List.mem_cons_of_mem _ hother))
        hothers (fun other hother => hd other (List.mem_cons_of_mem _ hother)) hrest
      rw [ways_join_cons]
      exact ⟨q, List.mem_flatMap.2 ⟨m, hm, hq⟩, hend⟩

end Winnow.Pattern
