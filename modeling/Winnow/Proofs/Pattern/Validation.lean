import Winnow.Proofs.Pattern.Acceptance
import Winnow.Proofs.Pattern.Decomposition

/-!
# Validating a path

Whether a path fits a pattern is asked more often than what its parameters are, so a pattern without
constraints answers it with an expression that has no groups. Groups do not change what is taken:
part by part the two expressions leave the same texts (`takesAlike_partNode`), so they match the
same paths (`accepts_eq_isSome_extract`).
-/

namespace Winnow.Pattern

open Regex

/-- Two expressions see nothing but what they take, and take the same texts in the same order. -/
structure TakesAlike (n n' : Node) : Prop where
  isLocal : n.isLocal = true
  isLocal' : n'.isLocal = true
  rests : n.rests = n'.rests

namespace TakesAlike

variable {a a' b b' : Node}

theorem refl (h : a.isLocal = true) : TakesAlike a a := ⟨h, h, rfl⟩

/-- A group does not change what is taken. -/
theorem group (i : Nat) (h : a.isLocal = true) : TakesAlike (.group i a) a := ⟨h, h, rfl⟩

theorem seq (ha : TakesAlike a a') (hb : TakesAlike b b') :
    TakesAlike (.seq a b) (.seq a' b') := by
  constructor
  · rw [Node.isLocal, ha.isLocal, hb.isLocal, Bool.and_self]
  · rw [Node.isLocal, ha.isLocal', hb.isLocal', Bool.and_self]
  · funext s
    rw [Node.rests, Node.rests, ha.rests, hb.rests]

theorem optionally (h : TakesAlike a a') :
    TakesAlike (Pattern.optionally a) (Pattern.optionally a') := by
  refine ⟨h.isLocal, h.isLocal', ?_⟩
  funext s
  simp only [Pattern.optionally, Node.rests, h.rests]

theorem foldNode (kind : Kind) (fold : Fold) (h : TakesAlike a a') :
    TakesAlike (foldNode kind fold a) (foldNode kind fold a') := by
  have hseparator : TakesAlike (.char separator) (.char separator) := .refl rfl
  rw [foldNode_eq, foldNode_eq]
  by_cases hoptional : kind.isOptional = true
  · rw [if_pos hoptional, if_pos hoptional]
    cases fold with
    | none => exact h.optionally
    | before => exact (hseparator.seq h).optionally
    | after => exact (h.seq hseparator).optionally
  · rw [if_neg hoptional, if_neg hoptional]
    exact h

theorem join {n n' : Node} {ns ns' : List Node} (h : TakesAlike n n')
    (hs : TakesAlike (Node.join ns) (Node.join ns')) (hlength : ns.length = ns'.length) :
    TakesAlike (Node.join (n :: ns)) (Node.join (n' :: ns')) := by
  cases ns with
  | nil =>
      cases ns' with
      | nil => exact h
      | cons m' ms' => cases hlength
  | cons m ms =>
      cases ns' with
      | nil => cases hlength
      | cons m' ms' => exact h.seq hs

/-- Expressions that take alike match the same texts. -/
theorem isSome_fullMatch (h : TakesAlike a a') (text : List Char) :
    (a.fullMatch text).isSome = (a'.fullMatch text).isSome := by
  rw [Bool.eq_iff_iff, isSome_fullMatch_iff h.isLocal, isSome_fullMatch_iff h.isLocal', h.rests]

end TakesAlike

theorem isLocal_literal (text : List Char) : (Node.join (text.map .char)).isLocal = true := by
  induction text with
  | nil => rfl
  | cons c text ih =>
      cases text with
      | nil => rfl
      | cons d text => exact ih

/-- A parameter without constraint is read in the same way everywhere. -/
theorem valueNode_of_free {kind : Kind} (hfree : kind.constraint? = none) :
    ∃ value, value.isLocal = true ∧ ∀ s, valueNode kind s = .ok (value, s) := by
  cases kind with
  | constrained c => cases hfree
  | splat => exact ⟨anyRest, rfl, fun _ => rfl⟩
  | _ => exact ⟨segment, rfl, fun _ => rfl⟩

section Reading

variable {s s' t t' : Scope}

theorem takesAlike_partNode {part : Part} (hfree : part.Free) {node node' : Node}
    (h : partNode true part s = .ok (node, s')) (h' : partNode false part t = .ok (node', t')) :
    TakesAlike node node' := by
  cases part with
  | literal text =>
      cases h
      cases h'
      exact .refl (isLocal_literal text.toList)
  | param q fold =>
      obtain ⟨value, hlocal, hvalue⟩ := valueNode_of_free (hfree q fold rfl)
      obtain ⟨-, body, s₁, hbody, rfl, -⟩ := partNode_param h
      rw [hvalue] at hbody
      cases hbody
      obtain ⟨⟨body', t₁⟩, hbody', h'⟩ := bind_eq_ok.1 h'
      cases h'
      have hbody' : valueNode q.kind t = .ok (body', t') := hbody'
      rw [hvalue] at hbody'
      cases hbody'
      exact (TakesAlike.group s.next hlocal).foldNode q.kind fold

/-- **Groups do not change what a layout takes.** -/
theorem takesAlike_partNodes {parts : List Part} (hfree : ∀ part ∈ parts, part.Free)
    {nodes nodes' : List Node} (h : partNodes true parts s = .ok (nodes, s'))
    (h' : partNodes false parts t = .ok (nodes', t')) :
    nodes.length = nodes'.length ∧ TakesAlike (Node.join nodes) (Node.join nodes') := by
  induction parts generalizing s t nodes nodes' with
  | nil =>
      cases h
      cases h'
      exact ⟨rfl, .refl rfl⟩
  | cons part rest ih =>
      obtain ⟨node, s₁, ns, hpart, hrest, rfl⟩ := partNodes_cons h
      obtain ⟨node', t₁, ns', hpart', hrest', rfl⟩ := partNodes_cons h'
      obtain ⟨hlength, hns⟩ :=
        ih (fun other hother => hfree other (List.mem_cons_of_mem _ hother)) hrest hrest'
      have hnode := takesAlike_partNode (hfree part List.mem_cons_self) hpart hpart'
      exact ⟨congrArg (· + 1) hlength, hnode.join hns hlength⟩

end Reading

/-- The parts of a pattern that has no constraints. -/
theorem Made.free_of_constraints_eq_nil {p : Pattern} {tokens : List Token} {nodes : List Node}
    {s : Scope} (h : Made p tokens nodes s) (hnone : p.constraints = []) :
    ∀ part ∈ p.parts, part.Free := by
  rintro part hpart q fold rfl
  by_contra hconstraint
  obtain ⟨c, hc⟩ := Option.ne_none_iff_exists'.1 hconstraint
  obtain ⟨node, hnode, -⟩ := h.exists_constraint (h.mem_params hpart) (Kind.eq_constrained hc)
  rw [hnone] at hnode
  cases hnode

section Answers

variable {p : Pattern} {tokens : List Token} {nodes : List Node} {s : Scope}

/-- Every parameter that is not optional takes part in every match. -/
theorem Made.isSome_of_extract (h : Made p tokens nodes s) {id : String}
    {values : Assoc String String} (hv : p.extract id = .ok (some values)) {q : Param}
    (hq : q ∈ p.params) (hrequired : q.kind.isOptional = false) :
    (values.get? q.name).isSome = true := by
  obtain ⟨d, hfits, -, -, rfl⟩ := h.exists_tiling hv
  obtain ⟨fold, hpart⟩ := h.exists_part_of_mem_params hq
  rw [get?_valuesOf d (h.filterMap_param? ▸ h.nodup_names) hpart, Option.isSome_map]
  cases hc : d (.param q fold) with
  | some v => rfl
  | none =>
      have hoptional := hfits _ hpart
      rw [hc] at hoptional
      have hoptional : q.kind.isOptional = true := hoptional
      rw [hrequired] at hoptional
      cases hoptional

/-- Without constraints nothing that was matched is rejected. -/
theorem Made.extract_of_free (h : Made p tokens nodes s) (hfree : ∀ part ∈ p.parts, part.Free)
    (id : String) : ∃ found, p.extract id = .ok found ∧
      found.isSome = (p.matcher.fullMatch id.toList).isSome := by
  refine ⟨_, h.extract_eq id, ?_⟩
  cases p.matcher.fullMatch id.toList with
  | none => rfl
  | some place =>
      rw [Option.bind_some, if_pos (all_isClean_of_free hfree _)]
      rfl

end Answers

/-- **Validation agrees with extraction.** Extraction comes to an answer for every path, since each
parameter that is not optional has a value wherever the matcher reaches the end; and a path is
accepted exactly if it yields parameters, also where the expression without groups decides. -/
theorem accepts_eq_isSome_extract {source : String} {p : Pattern} (h : compile source = .ok p)
    (id : String) :
    ∃ found, p.extract id = .ok found ∧ p.accepts id = .ok found.isSome ∧
      ∀ values, found = some values →
        ∀ q ∈ p.params, q.kind.isOptional = false → (values.get? q.name).isSome = true := by
  obtain ⟨-, tokens, nodes, s, hmade⟩ := made_of_compile h
  have hvalues : ∀ found, p.extract id = .ok found → ∀ values, found = some values →
      ∀ q ∈ p.params, q.kind.isOptional = false → (values.get? q.name).isSome = true := by
    rintro found hfound values rfl q hq hrequired
    exact hmade.isSome_of_extract hfound hq hrequired
  by_cases hnone : p.constraints = []
  · have hfree := hmade.free_of_constraints_eq_nil hnone
    obtain ⟨found, hfound, hsome⟩ := hmade.extract_of_free hfree id
    obtain ⟨nodes', s', hread, hvalidator⟩ := exists_validator_of_compile h
    obtain ⟨-, halike⟩ := takesAlike_partNodes hfree hmade.read hread
    refine ⟨found, hfound, ?_, hvalues found hfound⟩
    rw [accepts, hnone, hsome, hmade.matcher, hvalidator, halike.isSome_fullMatch]
    rfl
  · have hfound := hmade.extract_eq id
    refine ⟨_, hfound, ?_, hvalues _ hfound⟩
    rw [accepts, if_neg (by simpa using hnone), hfound]
    rfl

/-- An optional part that is absent, with the separator in front of it. -/
theorem accepts_eq_isSome_extract_absent :
    ∃ p, compile "posts/\x7b?date\x7d/\x7bslug\x7d.md" = .ok p ∧
      p.extract "posts/x.md" = .ok (some [("slug", "x")]) ∧ p.accepts "posts/x.md" = .ok true := by
  have hfacts : (compile "posts/\x7b?date\x7d/\x7bslug\x7d.md").toOption.map (fun p =>
      (p.extract "posts/x.md").toOption) = some (some (some [("slug", "x")])) := by decide +kernel
  obtain ⟨p, hp, hvalues⟩ := exists_ok_of_toOption_map hfacts
  have hextract := eq_ok_of_toOption hvalues
  obtain ⟨found, hfound, haccepts, -⟩ := accepts_eq_isSome_extract hp "posts/x.md"
  rw [hextract] at hfound
  cases hfound
  exact ⟨p, hp, hextract, haccepts⟩

end Winnow.Pattern
