import Winnow.Proofs.Pattern.Rebuilding
import Winnow.Proofs.Pattern.Trying

/-!
# The matcher and what was built

Does a pattern match the paths that it builds? Building checks each value on its own, while the
matcher looks for one way through the whole path. If the constraints see nothing but the text they
take and settle nothing, and the value of a splat stays within a line, then every value that passed
the checks is one that the search tries, so that the path as a whole is matched.

That does not mean that the values are handed out. The matcher takes the first way it finds, and
only then looks whether a constraint has taken nothing or a separator; other ways are not tried any
more. A constraint that takes separators may thus lose a path that was built, and there is no other
way to lose one.
-/

namespace Winnow.Pattern

open Regex

/-! ## What was built -/

/-- The text that building puts in the place of a parameter: none for an optional parameter without
value, and the empty one for a splat without value. -/
def Param.built? (values : Assoc String Value) (q : Param) : Option String :=
  if isUnset q (values.get? q.name) then (if q.kind = .splat then some "" else none)
  else (values.get? q.name).map Value.plain

/-- What building gives a part. -/
def Part.built (values : Assoc String Value) : Part → Choice
  | .literal _ => none
  | .param q _ => (q.built? values).map String.toList

/-- What the checks of building let through. -/
def Part.Passes (p : Pattern) : Part → Choice → Prop
  | .literal _, c => c = none
  | .param q _, none => q.kind.isOptional = true
  | .param q _, some v => p.valueFault? q (String.ofList v) = none

section Passing

variable {p : Pattern} {q : Param} {v : List Char}

/-- Only a splat may be empty or hold a separator. -/
theorem clean_of_valueFault? (hsplat : q.kind ≠ .splat)
    (h : p.valueFault? q (String.ofList v) = none) : v ≠ [] ∧ separator ∉ v := by
  have hv : v.isEmpty = false ∧ v.contains separator = false := by
    rw [valueFault?.eq_def, isEmpty_ofList, String.toList_ofList] at h
    split at h
    next hkind => exact absurd hkind hsplat
    next =>
      split at h
      · cases h
      · split at h
        · cases h
        · simp_all
  exact ⟨List.isEmpty_eq_false_iff.1 hv.1, by simpa using hv.2⟩

/-- What passed was taken by the constraint alone. -/
theorem isSome_fullMatch_of_valueFault? {c : String} (hkind : q.kind = .constrained c) {node : Node}
    (hnode : p.constraints.get? q.name = some node)
    (h : p.valueFault? q (String.ofList v) = none) : (node.fullMatch v).isSome = true := by
  rw [valueFault?.eq_def, hkind] at h
  simp only [Kind.constraint?, hnode, String.toList_ofList] at h
  split at h
  · cases h
  · split at h
    · cases h
    · simpa [← Option.ne_none_iff_isSome] using h

end Passing

theorem built_of_set {values : Assoc String Value} {q : Param} {v : Value}
    (hv : values.get? q.name = some v) (hset : isUnset q (some v) = false) (fold : Fold) :
    (Part.param q fold).built values = some v.plain.toList := by
  simp [Part.built, Param.built?, hv, hset]

theorem built_of_unset {values : Assoc String Value} {q : Param}
    (hunset : isUnset q (values.get? q.name) = true) (fold : Fold) :
    (Part.param q fold).built values = if q.kind = .splat then some [] else none := by
  rw [Part.built, Param.built?, if_pos hunset]
  split <;> rfl

theorem passes_of_buildPart {p : Pattern} {values : Assoc String Value} {part : Part}
    (hp : part.Proper) {text : String} (h : p.buildPart values part = .ok text) :
    part.Passes p (part.built values) ∧ text.toList = part.text (part.built values) := by
  cases hp with
  | literal t =>
      cases h
      exact ⟨rfl, rfl⟩
  | param q fold hfold =>
      rw [buildPart] at h
      dsimp only at h
      split at h
      next hunset =>
        rw [built_of_unset hunset]
        split at h
        next hkind =>
            cases h
            simp [hkind, Part.Passes, Part.text, Kind.isOptional]
        next hkind =>
            cases h
            -- No separator is folded into a splat.
            obtain rfl : fold = .none :=
              Decidable.not_imp_symm hfold (by simp [hkind, Kind.isOptional])
            simp [hkind, Part.Passes, Part.text, valueFault?, Fold.wrap]
        next => cases h
      next hset =>
        split at h
        · cases h
        next hfault =>
            cases h
            cases hv : values.get? q.name with
            | none =>
                rw [hv] at hset
                exact absurd rfl hset
            | some v =>
                rw [hv] at hset hfault
                rw [built_of_set hv ((Bool.not_eq_true _).mp hset), Part.Passes,
                  String.ofList_toList]
                exact ⟨hfault, toList_folded fold v.plain⟩

/-- **A path that was built** consists of what was given to the parts, and all of it has passed. -/
theorem passes_of_build {p : Pattern} (hp : ∀ part ∈ p.parts, part.Proper)
    {values : Assoc String Value} {id : String} (h : p.build values = .ok id) :
    (∀ part ∈ p.parts, part.Passes p (part.built values)) ∧
      id.toList = textOf p.parts (Part.built values) := by
  rw [build] at h
  generalize p.parts = parts at h hp
  induction parts generalizing id with
  | nil =>
      cases h
      exact ⟨by simp, rfl⟩
  | cons part rest ih =>
      obtain ⟨head, hhead, h⟩ := bind_eq_ok.1 h
      obtain ⟨tail, htail, h⟩ := bind_eq_ok.1 h
      cases h
      obtain ⟨hpasses, htext⟩ := passes_of_buildPart (hp part List.mem_cons_self) hhead
      obtain ⟨hothers, htexts⟩ :=
        ih htail fun other hother => hp other (List.mem_cons_of_mem _ hother)
      refine ⟨List.forall_mem_cons.2 ⟨hpasses, hothers⟩, ?_⟩
      rw [String.toList_append, htext, htexts, textOf_cons]

/-- What may not be handed out: a text without characters or with a separator that a constraint has
taken. -/
theorem isClean_eq_false_iff {q : Param} {fold : Fold} {v : List Char} :
    (Part.param q fold).isClean (some v) = false ↔
      q.kind.constraint?.isSome = true ∧ (v = [] ∨ separator ∈ v) := by
  simp [Part.isClean, or_iff_not_imp_left]

/-- What passed may be handed out. -/
theorem isClean_of_passes {p : Pattern} {part : Part} {c : Choice} (h : part.Passes p c) :
    part.isClean c = true := by
  cases part with
  | literal text => rfl
  | param q fold =>
      cases c with
      | none => rfl
      | some v =>
          refine (Bool.not_eq_false _).mp fun hunclean => ?_
          obtain ⟨hconstraint, hunfit⟩ := isClean_eq_false_iff.1 hunclean
          have hsplat : q.kind ≠ .splat := by
            intro hkind
            simp [hkind, Kind.constraint?] at hconstraint
          obtain ⟨hne, hsep⟩ := clean_of_valueFault? hsplat h
          exact hunfit.elim hne hsep

/-! ## What was built is tried -/

theorem exists_fullMatch_of_tries {capture : Bool} {parts : List Part}
    (hp : ∀ part ∈ parts, part.Proper) {s s' : Scope} {nodes : List Node}
    (h : partNodes capture parts s = .ok (nodes, s')) {d : Part → Choice}
    (hd : ∀ part ∈ parts, part.Tries (d part)) :
    ∃ place, (Node.join nodes).fullMatch (textOf parts d) = some place := by
  have hafter : (Place.start (textOf parts d)).after = textOf parts d ++ [] :=
    (List.append_nil _).symm
  obtain ⟨q, hq, hend⟩ := exists_mem_ways_of_tries hp h hd hafter
  rw [← Option.isSome_iff_exists, fullMatch_eq_find?, List.find?_isSome]
  exact ⟨q, hq, List.isEmpty_iff.2 hend⟩

theorem keys_constraintNodes_sublist (params : List Param) :
    (Assoc.keys (constraintNodes params)).Sublist (params.map Param.name) := by
  induction params with
  | nil => exact .slnil
  | cons q rest ih =>
      cases hkind : q.kind with
      | constrained c =>
          cases hread : read c.toList with
          | error e =>
              simp only [constraintNodes, List.filterMap_cons, hkind, hread] at ih ⊢
              exact .cons _ ih
          | ok node =>
              simp only [constraintNodes, List.filterMap_cons, hkind, hread] at ih ⊢
              exact .cons_cons _ ih
      | _ =>
          simp only [constraintNodes, List.filterMap_cons, hkind] at ih ⊢
          exact .cons _ ih

namespace Made

variable {p : Pattern} {tokens : List Token} {nodes : List Node} {s : Scope}

/-- Every constraint is there, read on its own. -/
theorem exists_constraint (h : Made p tokens nodes s) {q : Param} (hq : q ∈ p.params) {c : String}
    (hkind : q.kind = .constrained c) :
    ∃ node, p.constraints.get? q.name = some node ∧ Regex.read c.toList = .ok node := by
  obtain ⟨fold, hpart⟩ := h.exists_part_of_mem_params hq
  cases h.proper _ hpart with
  | param _ _ _ hread =>
      obtain ⟨node, hnode⟩ := hread c hkind
      refine ⟨node, ?_, hnode⟩
      have hkeys := (keys_constraintNodes_sublist p.params).nodup h.nodup_names
      rw [h.constraints, Assoc.get?_eq_some_iff_mem hkeys]
      exact List.mem_filterMap.2 ⟨q, hq, by simp [hkind, hnode, Except.toOption]⟩

section Built

variable (h : Made p tokens nodes s) {values : Assoc String Value}
  (hfeed : ∀ q ∈ p.params, q.kind = .splat →
    ∀ v, values.get? q.name = some v → '\n' ∉ v.plain.toList)
  {id : String} (hb : p.build values = .ok id)

include hfeed in
theorem lineFeed_not_mem_of_built {q : Param} {fold : Fold} (hq : q ∈ p.params)
    (hkind : q.kind = .splat) {v : List Char}
    (hv : (Part.param q fold).built values = some v) : '\n' ∉ v := by
  cases hset : isUnset q (values.get? q.name) with
  | true =>
      rw [built_of_unset hset, if_pos hkind] at hv
      cases hv
      exact List.not_mem_nil
  | false =>
      cases hvalue : values.get? q.name with
      | none =>
          rw [hvalue] at hset
          cases hset
      | some value =>
          rw [built_of_set hvalue (hvalue ▸ hset)] at hv
          cases hv
          exact hfeed q hq hkind value hvalue

include h hfeed hb

/-- What was built fits, since a constraint that takes a text alone admits it. -/
theorem fits_of_build : ∀ part ∈ p.parts, part.Fits (part.built values) := by
  intro part hpart
  have hpasses := (passes_of_build h.proper hb).1 part hpart
  cases part with
  | literal text => rfl
  | param q fold =>
      have hq := h.mem_params hpart
      cases hv : (Part.param q fold).built values with
      | none => rwa [hv] at hpasses
      | some v =>
          rw [hv] at hpasses
          cases hkind : q.kind with
          | splat =>
              rw [Part.Fits, hkind]
              exact lineFeed_not_mem_of_built hfeed hq hkind hv
          | constrained c =>
              obtain ⟨alone, hnode, hread⟩ := h.exists_constraint hq hkind
              rw [Part.Fits, hkind]
              intro node hread' hnodeLocal
              rw [hread] at hread'
              cases hread'
              refine ⟨[], ?_⟩
              rw [List.append_nil, ← isSome_fullMatch_iff hnodeLocal]
              exact isSome_fullMatch_of_valueFault? hkind hnode hpasses
          | _ =>
              rw [Part.Fits, hkind]
              exact clean_of_valueFault? (by simp [hkind]) hpasses

/-- The search tries whatever was built, if no constraint settles anything. -/
theorem tries_of_build (hlocal : ∀ e ∈ p.constraints, e.2.isLocal = true)
    (hsettles : ∀ e ∈ p.constraints, e.2.settles = false) :
    ∀ part ∈ p.parts, part.Tries (part.built values) := by
  intro part hpart
  have hfits := h.fits_of_build hfeed hb part hpart
  have hpasses := (passes_of_build h.proper hb).1 part hpart
  cases part with
  | literal text => trivial
  | param q fold =>
      cases hv : (Part.param q fold).built values with
      | none => rwa [hv] at hpasses
      | some v =>
          rw [hv] at hpasses hfits
          show q.kind.Tries v
          cases hc : q.kind.constraint? with
          | none => exact Kind.tries_of_free hc hfits
          | some c =>
              have hkind := Kind.eq_constrained hc
              obtain ⟨alone, hnode, hread⟩ := h.exists_constraint (h.mem_params hpart) hkind
              have hmem := Assoc.mem_of_get?_eq_some hnode
              rw [hkind]
              exact Kind.tries_of_alone hread (hlocal _ hmem) (hsettles _ hmem)
                (isSome_fullMatch_of_valueFault? hkind hnode hpasses)

/-- **What was built is matched** as a whole. -/
theorem exists_fullMatch_of_build (hlocal : ∀ e ∈ p.constraints, e.2.isLocal = true)
    (hsettles : ∀ e ∈ p.constraints, e.2.settles = false) :
    ∃ place, p.matcher.fullMatch id.toList = some place := by
  rw [h.matcher, (passes_of_build h.proper hb).2]
  exact exists_fullMatch_of_tries h.proper h.read (h.tries_of_build hfeed hb hlocal hsettles)

end Built

/-! ## What is handed out -/

/-- A full match is rejected if a constraint has taken nothing or a separator, and only then. -/
theorem extract_eq_none_iff (h : Made p tokens nodes s) {id : String} {place : Place}
    (hplace : p.matcher.fullMatch id.toList = some place) :
    p.extract id = .ok none ↔ ∃ q ∈ p.params, q.kind.constraint?.isSome = true ∧
      ∃ v, (p.groups.get? q.name).bind place.group? = some v ∧ (v = [] ∨ separator ∈ v) := by
  have hunclean : p.extract id = .ok none ↔
      ∃ part ∈ p.parts, part.isClean (part.choice p.groups place) = false := by
    rw [h.extract_eq, hplace, Option.bind_some, Except.ok.injEq]
    split <;> simp_all
  rw [hunclean]
  constructor
  · rintro ⟨part, hpart, hclean⟩
    cases part with
    | literal text => cases hclean
    | param q fold =>
        rw [Part.choice] at hclean
        cases hv : (p.groups.get? q.name).bind place.group? with
        | none =>
            rw [hv] at hclean
            cases hclean
        | some v =>
            rw [hv, isClean_eq_false_iff] at hclean
            exact ⟨q, h.mem_params hpart, hclean.1, v, hv, hclean.2⟩
  · rintro ⟨q, hq, hconstraint, v, hv, hunfit⟩
    obtain ⟨fold, hpart⟩ := h.exists_part_of_mem_params hq
    refine ⟨_, hpart, ?_⟩
    rw [Part.choice, hv, isClean_eq_false_iff]
    exact ⟨hconstraint, hunfit⟩

theorem extract_eq_some_of_ne_none (h : Made p tokens nodes s) {id : String}
    (hne : p.extract id ≠ .ok none) : ∃ found, p.extract id = .ok (some found) := by
  rw [h.extract_eq] at hne ⊢
  obtain ⟨found, hfound⟩ := Option.ne_none_iff_exists'.1 fun hnone => hne (congrArg _ hnone)
  exact ⟨found, congrArg _ hfound⟩

end Made

theorem exists_validator_of_compile {source : String} {p : Pattern} (h : compile source = .ok p) :
    ∃ nodes s, partNodes false p.parts .initial = .ok (nodes, s) ∧
      p.validator = Node.join nodes := by
  obtain ⟨tokens, -, h⟩ := bind_eq_ok.1 h
  split at h
  · cases h
  · dsimp only at h
    split at h
    · cases h
    · obtain ⟨⟨matcher, groups⟩, -, h⟩ := bind_eq_ok.1 h
      obtain ⟨⟨validator, _⟩, hvalidator, h⟩ := bind_eq_ok.1 h
      cases h
      obtain ⟨⟨nodes, s⟩, hnodes, hrest⟩ := bind_eq_ok.1 (mapError_eq_ok.1 hvalidator)
      obtain ⟨-, -, hrest⟩ := bind_eq_ok.1 hrest
      cases hrest
      exact ⟨nodes, s, hnodes, rfl⟩

/-- **A pattern matches what it builds.** The values of a path that was built are lost only where a
constraint has taken nothing or a separator on the way that is found, and never if no constraint
takes such a text. The expression without groups and the one with groups agree. -/
theorem accepts_of_build {source : String} {p : Pattern} (h : compile source = .ok p)
    (hlocal : ∀ e ∈ p.constraints, e.2.isLocal = true)
    (hsettles : ∀ e ∈ p.constraints, e.2.settles = false) {values : Assoc String Value}
    (hfeed : ∀ q ∈ p.params, q.kind = .splat →
      ∀ v, values.get? q.name = some v → '\n' ∉ v.plain.toList)
    {id : String} (hb : p.build values = .ok id) :
    ∃ place, p.matcher.fullMatch id.toList = some place ∧
      (p.extract id = .ok none ↔ ∃ q ∈ p.params, q.kind.constraint?.isSome = true ∧
        ∃ v, (p.groups.get? q.name).bind place.group? = some v ∧ (v = [] ∨ separator ∈ v)) ∧
      (p.accepts id = .ok true ↔ ∃ found, p.extract id = .ok (some found)) ∧
      ((∀ e ∈ p.constraints, ∀ v, v = [] ∨ separator ∈ v → e.2.fullMatch v = none) →
        ∃ found, p.extract id = .ok (some found)) := by
  obtain ⟨-, tokens, nodes, s, hmade⟩ := made_of_compile h
  have hflat : ∀ e ∈ p.constraints, e.2.settlesFlat = true := fun e he =>
    settlesFlat_of_settles (hsettles e he)
  obtain ⟨place, hplace⟩ := hmade.exists_fullMatch_of_build hfeed hb hlocal hsettles
  have hlost := hmade.extract_eq_none_iff hplace
  have hkept : (∀ e ∈ p.constraints, ∀ v, v = [] ∨ separator ∈ v → e.2.fullMatch v = none) →
      ∃ found, p.extract id = .ok (some found) := by
    intro hnarrow
    refine hmade.extract_eq_some_of_ne_none fun hnone => ?_
    obtain ⟨q, hq, hconstraint, v, hv, hunfit⟩ := hlost.1 hnone
    obtain ⟨fold, hpart⟩ := hmade.exists_part_of_mem_params hq
    obtain ⟨c, hc⟩ := Option.isSome_iff_exists.1 hconstraint
    obtain ⟨alone, hnode, -⟩ := hmade.exists_constraint hq (Kind.eq_constrained hc)
    have hfits := (hmade.tiled hplace).1 _ hpart
    rw [Part.choice, hv] at hfits
    -- What the constraint took in place it takes alone.
    have hmatch := hmade.isSome_fullMatch hlocal hflat hpart hfits hc hnode
    rw [hnarrow _ (Assoc.mem_of_get?_eq_some hnode) v hunfit] at hmatch
    cases hmatch
  refine ⟨place, hplace, hlost, ?_, hkept⟩
  by_cases hnone : p.constraints.isEmpty = true
  · -- Without constraints nothing is lost, and the expression without groups matches as well.
    rw [accepts, if_pos hnone]
    obtain ⟨nodes', s', hread, hvalidator⟩ := exists_validator_of_compile h
    obtain ⟨place', hplace'⟩ := exists_fullMatch_of_tries hmade.proper hread
      (hmade.tries_of_build hfeed hb hlocal hsettles)
    rw [← hvalidator, ← (passes_of_build hmade.proper hb).2] at hplace'
    simp only [hplace', Option.isSome_some, true_iff]
    refine hkept fun e he => ?_
    rw [List.isEmpty_iff.1 hnone] at he
    cases he
  · rw [accepts, if_neg hnone]
    cases hextract : p.extract id with
    | error e => simp [bind, Except.bind]
    | ok found => cases found <;> simp [bind, Except.bind, pure, Except.pure]

/-- A number before a rest with a separator. -/
theorem accepts_of_build_number : ∃ p, compile "\x7bn:[0-9]+\x7d/\x7b...rest\x7d" = .ok p ∧
    (∀ e ∈ p.constraints, e.2.isLocal = true) ∧ (∀ e ∈ p.constraints, e.2.settles = false) ∧
    (∀ q ∈ p.params, q.kind = .splat → ∀ v,
      Assoc.get? q.name [("n", Value.int 12), ("rest", .text "a/b")] = some v →
        '\n' ∉ v.plain.toList) ∧
    p.build [("n", .int 12), ("rest", .text "a/b")] = .ok "12/a/b" ∧
    ∃ place, p.matcher.fullMatch "12/a/b".toList = some place ∧
      (p.extract "12/a/b" = .ok none ↔ ∃ q ∈ p.params, q.kind.constraint?.isSome = true ∧
        ∃ v, (p.groups.get? q.name).bind place.group? = some v ∧ (v = [] ∨ separator ∈ v)) ∧
      (p.accepts "12/a/b" = .ok true ↔ ∃ found, p.extract "12/a/b" = .ok (some found)) ∧
      ((∀ e ∈ p.constraints, ∀ v, v = [] ∨ separator ∈ v → e.2.fullMatch v = none) →
        ∃ found, p.extract "12/a/b" = .ok (some found)) := by
  have hfacts : (compile "\x7bn:[0-9]+\x7d/\x7b...rest\x7d").toOption.map (fun p =>
      ((p.constraints.all fun e => e.2.isLocal && !e.2.settles) &&
        p.params.all fun q => q.kind ≠ .splat || q.name = "rest",
        (p.build [("n", .int 12), ("rest", .text "a/b")]).toOption)) =
      some (true, some "12/a/b") := by decide +kernel
  obtain ⟨p, hp, hfacts⟩ := exists_ok_of_toOption_map hfacts
  obtain ⟨hfacts, hbuild⟩ := Prod.mk.inj hfacts
  simp only [Bool.and_eq_true, List.all_eq_true, Bool.not_eq_true', Bool.or_eq_true,
    decide_eq_true_eq] at hfacts
  obtain ⟨hconstraints, hparams⟩ := hfacts
  have hlocal : ∀ e ∈ p.constraints, e.2.isLocal = true := fun e he => (hconstraints e he).1
  have hsettles : ∀ e ∈ p.constraints, e.2.settles = false := fun e he => (hconstraints e he).2
  have hfeed : ∀ q ∈ p.params, q.kind = .splat → ∀ v,
      Assoc.get? q.name [("n", Value.int 12), ("rest", .text "a/b")] = some v →
        '\n' ∉ v.plain.toList := by
    intro q hq hkind v hv
    rw [(hparams q hq).resolve_left fun hne => hne hkind] at hv
    cases hv
    decide
  have hb := eq_ok_of_toOption hbuild
  exact ⟨p, hp, hlocal, hsettles, hfeed, hb, accepts_of_build hp hlocal hsettles hfeed hb⟩

/-- A constraint that takes separators as well takes too much of the path: the way that is found
leaves the rest as little as it can, and is rejected. -/
theorem extract_rejects_built : ∃ p, compile "\x7bx:.+\x7d/\x7b...y\x7d" = .ok p ∧
    p.build [("x", .text "a"), ("y", .text "b/c")] = .ok "a/b/c" ∧
    p.extract "a/b/c" = .ok none ∧ p.accepts "a/b/c" = .ok false := by
  have hfacts : (compile "\x7bx:.+\x7d/\x7b...y\x7d").toOption.map (fun p =>
      (p.build [("x", .text "a"), ("y", .text "b/c")]).toOption = some "a/b/c" &&
        (p.extract "a/b/c").toOption = some none &&
        (p.accepts "a/b/c").toOption = some false) = some true := by decide +kernel
  obtain ⟨p, hp, hfacts⟩ := exists_ok_of_toOption_map hfacts
  simp only [Bool.and_eq_true, decide_eq_true_eq] at hfacts
  obtain ⟨⟨hbuild, hextract⟩, haccepts⟩ := hfacts
  exact ⟨p, hp, eq_ok_of_toOption hbuild, eq_ok_of_toOption hextract, eq_ok_of_toOption haccepts⟩

end Winnow.Pattern
