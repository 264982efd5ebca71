import Winnow.Proofs.Pattern.Acceptance
import Winnow.Proofs.Pattern.Decomposition
import Winnow.Proofs.Text.Splitting

/-!
# The round trip through a path

When does a path that was built yield the values it was built from? When there is only one way to
take it apart. This is so if a separator stands between any two parameters, and at most one
parameter may be absent or hold separators itself.

An optional parameter that takes a separator along is present exactly if the path has one separator
more (`count_textOf`). Once this is known, the path is cut at its separators from the left, and each
cut sets one value apart from what follows (`text_eq_of_textOf_eq`); behind a splat it is the number
of separators again that tells where the splat ends.
-/

namespace Winnow.Pattern

open Regex

/-! ## Parameters that are kept apart -/

/-- Whether a literal with a separator stands between any two parameters, and in front of the first
one if a parameter is `pending` there. -/
def keptApart : Bool → List Token → Bool
  | _, [] => true
  | pending, .literal text :: rest => keptApart (pending && !text.toList.contains separator) rest
  | pending, .param _ :: rest => !pending && keptApart true rest

/-- A parameter that may be absent or hold separators. -/
def Kind.isFlexible : Kind → Bool
  | .optional => true
  | .splat => true
  | _ => false

def Part.isFlexible : Part → Bool
  | .literal _ => false
  | .param q _ => q.kind.isFlexible

/-- Whether the texts of parameters are kept apart by separators, among them those that the
parameters take along where they are present. -/
def partsApart (present : Bool) : Bool → List Part → Bool
  | _, [] => true
  | pending, .literal text :: rest =>
    partsApart present (pending && !text.toList.contains separator) rest
  | pending, .param _ .none :: rest => !pending && partsApart present true rest
  | pending, .param _ .before :: rest => partsApart present (present || pending) rest
  | pending, .param _ .after :: rest =>
    if present then !pending && partsApart present false rest else partsApart present pending rest

section Layout

variable {present : Bool}

theorem partsApart_literalPart (pending : Bool) (text : List Char) (rest : List Part) :
    partsApart present pending (literalPart text ++ rest) =
      partsApart present (pending && !text.contains separator) rest := by
  cases text with
  | nil => simp [literalPart]
  | cons c text => simp [literalPart, partsApart]

/-- What is apart from something in front of it is apart without that. -/
theorem partsApart_of_pending {parts : List Part} (h : partsApart present true parts = true)
    (pending : Bool) : partsApart present pending parts = true := by
  cases pending with
  | true => exact h
  | false =>
      induction parts with
      | nil => rfl
      | cons part rest ih =>
          cases part with
          | literal text =>
              rw [partsApart, Bool.true_and] at h
              rw [partsApart, Bool.false_and]
              cases hsep : text.toList.contains separator with
              | true => rwa [hsep] at h
              | false =>
                  rw [hsep] at h
                  exact ih h
          | param q fold =>
              cases fold <;> cases present <;> simp_all [partsApart]

/-- **The layout keeps apart what the tokens do**, whether or not optional parameters are there. -/
theorem partsApart_layout {tokens : List Token} {pending : Bool}
    (h : keptApart pending tokens = true) : partsApart present pending (layout tokens) = true := by
  fun_induction layout tokens generalizing pending with
  | case1 => rfl
  | case2 text q rest text' ht hoptional ih =>
      have hrest : keptApart true rest = true := by
        rw [keptApart, keptApart, Bool.and_eq_true] at h
        exact h.2
      rw [partsApart_literalPart, partsApart]
      exact partsApart_of_pending (ih hrest) _
  | case3 text q rest _ ih =>
      rw [partsApart_literalPart]
      exact ih h
  | case4 text rest _ ih =>
      rw [partsApart_literalPart]
      exact ih h
  | case5 q text rest text' hoptional ht ih =>
      have hh : pending = false ∧ keptApart false rest = true := by
        simpa [keptApart, ht] using h
      obtain ⟨rfl, hrest⟩ := hh
      have hlater : partsApart present false
          (layout (.literal (String.ofList text') :: rest)) = true :=
        ih (by rwa [keptApart, Bool.false_and])
      rw [partsApart, hlater]
      cases present <;> rfl
  | case6 q text rest _ _ _ _ _ ih =>
      rw [keptApart, Bool.and_eq_true] at h
      rw [partsApart, ih h.2, h.1, Bool.and_self]
  | case7 q text rest _ ih =>
      rw [keptApart, Bool.and_eq_true] at h
      rw [partsApart, ih h.2, h.1, Bool.and_self]
  | case8 q rest _ ih =>
      rw [keptApart, Bool.and_eq_true] at h
      rw [partsApart, ih h.2, h.1, Bool.and_self]

end Layout

/-! ## Counting separators -/

/-- What a part may be given where parameters that take a separator along are `present` or not: only
a splat holds separators. -/
def Part.Narrow (present : Bool) : Part → Choice → Prop
  | .literal _, _ => True
  | .param q .none, c => q.kind ≠ .splat → ∀ v, c = some v → separator ∉ v
  | .param _ _, c => c.isSome = present ∧ ∀ v, c = some v → separator ∉ v

/-- The number of separators in the text of a part that is no splat. -/
def Part.separators (present : Bool) : Part → Nat
  | .literal text => text.toList.count separator
  | .param _ .none => 0
  | .param _ _ => if present then 1 else 0

section Narrow

variable {present : Bool} {d d' : Part → Choice}

theorem Part.count_text {part : Part} {c : Choice} (hc : part.Narrow present c)
    (hpart : part.isFlexible = false ∨ ∃ q fold, part = .param q fold ∧ fold ≠ .none) :
    (part.text c).count separator = part.separators present := by
  have hnone : ∀ {v : List Char}, separator ∉ v → v.count separator = 0 := List.count_eq_zero.2
  cases part with
  | literal text => rfl
  | param q fold =>
      cases fold with
      | none =>
          have hsplat : q.kind ≠ .splat := by
            rintro hkind
            simp [Part.isFlexible, hkind, Kind.isFlexible] at hpart
          cases c with
          | none => rfl
          | some v => exact hnone (hc hsplat v rfl)
      | before =>
          obtain ⟨rfl, hv⟩ := hc
          cases c with
          | none => rfl
          | some v =>
              show (separator :: v).count separator = 1
              rw [List.count_cons_self, hnone (hv v rfl)]
      | after =>
          obtain ⟨rfl, hv⟩ := hc
          cases c with
          | none => rfl
          | some v =>
              show (v ++ [separator]).count separator = 1
              rw [List.count_append, hnone (hv v rfl)]
              rfl

theorem count_textOf {parts : List Part} (hd : ∀ part ∈ parts, part.Narrow present (d part))
    (hparts : ∀ part ∈ parts,
      part.isFlexible = false ∨ ∃ q fold, part = .param q fold ∧ fold ≠ .none) :
    (textOf parts d).count separator = (parts.map (Part.separators present)).sum := by
  induction parts with
  | nil => rfl
  | cons part rest ih =>
      rw [textOf_cons, List.count_append, List.map_cons, List.sum_cons,
        Part.count_text (hd part List.mem_cons_self) (hparts part List.mem_cons_self),
        ih (fun other hother => hd other (List.mem_cons_of_mem _ hother))
          fun other hother => hparts other (List.mem_cons_of_mem _ hother)]

/-! ## Cutting at separators -/

/-- Texts without separators in front of the first separator are cut off at the same place. -/
theorem append_separator_inj {v v' a a' : List Char} (hv : separator ∉ v) (hv' : separator ∉ v')
    (h : v ++ separator :: a = v' ++ separator :: a') : v = v' ∧ a = a' := by
  have hpieces := congrArg (Text.splitOn separator) h
  rw [Text.splitOn_append_cons hv, Text.splitOn_append_cons hv'] at hpieces
  obtain rfl := (List.cons.inj hpieces).1
  exact ⟨rfl, (List.cons.inj (List.append_cancel_left h)).2⟩

/-- Two ways to go on with a path: behind the texts `v` and `v'`, which belong to a value that has
not ended yet, come `r` and `r'`. Unless a value is pending, nothing is left open. -/
structure Abreast (pending : Bool) (v v' r r' : List Char) : Prop where
  free : separator ∉ v
  free' : separator ∉ v'
  settled : pending = false → v = v'
  text : v ++ r = v' ++ r'

theorem Abreast.nil {r : List Char} : Abreast false [] [] r r :=
  ⟨List.not_mem_nil, List.not_mem_nil, fun _ => rfl, rfl⟩

/-- A separator ends the values in front of it. -/
theorem Abreast.separator {pending : Bool} {v v' r r' : List Char}
    (h : Abreast pending v v' (separator :: r) (separator :: r')) : v = v' ∧ r = r' :=
  append_separator_inj h.free h.free' h.text

section Cuts

variable {part : Part} {rest : List Part} {pending : Bool} {c c' : Choice} {v v' r r' : List Char}

/-- That the texts behind a part can be compared instead of those in front of it. -/
def CutsAlike (present : Bool) (part : Part) (rest : List Part) (c c' : Choice)
    (v v' r r' : List Char) : Prop :=
  ∃ pending w w', partsApart present pending rest = true ∧ Abreast pending w w' r r' ∧
    (w = w' → v = v' ∧ part.text c = part.text c')

theorem cutsAlike_literal {text : String}
    (hapart : partsApart present pending (.literal text :: rest) = true)
    (h : Abreast pending v v' (text.toList ++ r) (text.toList ++ r')) :
    CutsAlike present (.literal text) rest c c' v v' r r' := by
  rw [partsApart] at hapart
  by_cases hsep : separator ∈ text.toList
  · obtain ⟨before, behind, htext, hbefore⟩ := List.eq_append_cons_of_mem hsep
    have hcut : Abreast pending (v ++ before) (v' ++ before) (separator :: (behind ++ r))
        (separator :: (behind ++ r')) := by
      refine ⟨by simp [h.free, hbefore], by simp [h.free', hbefore],
        fun hp => congrArg (· ++ before) (h.settled hp), ?_⟩
      simpa [htext] using h.text
    obtain ⟨hfront, hbehind⟩ := hcut.separator
    obtain rfl := List.append_cancel_left hbehind
    simp only [List.contains_iff_mem.2 hsep, Bool.not_true, Bool.and_false] at hapart
    exact ⟨false, [], [], hapart, .nil, fun _ => ⟨List.append_cancel_right hfront, rfl⟩⟩
  · have hcontains : text.toList.contains separator = false := by simpa using hsep
    rw [hcontains, Bool.not_false, Bool.and_true] at hapart
    refine ⟨pending, v ++ text.toList, v' ++ text.toList, hapart, ?_,
      fun hw => ⟨List.append_cancel_right hw, rfl⟩⟩
    exact ⟨by simp [h.free, hsep], by simp [h.free', hsep],
      fun hp => congrArg (· ++ text.toList) (h.settled hp), by simpa using h.text⟩

/-- A value without separators is pending, and so is what one splat holds more than the other. -/
theorem cutsAlike_unfolded {q : Param}
    (hapart : partsApart present pending (.param q .none :: rest) = true)
    (hc : (Part.param q .none).Narrow present c) (hc' : (Part.param q .none).Narrow present c')
    (hsplat : q.kind = .splat → ∀ t, r = t ++ r' ∨ r' = t ++ r → separator ∉ t)
    (h : Abreast pending v v' ((Part.param q .none).text c ++ r)
      ((Part.param q .none).text c' ++ r')) :
    CutsAlike present (.param q .none) rest c c' v v' r r' := by
  rw [partsApart, Bool.and_eq_true, Bool.not_eq_true'] at hapart
  obtain rfl := h.settled hapart.1
  have htext := List.append_cancel_left h.text
  by_cases hkind : q.kind = .splat
  · rcases List.append_eq_append_iff.1 htext with ⟨t, ht, hr⟩ | ⟨t, ht, hr⟩
    · have hfree := hsplat hkind t (.inl hr)
      exact ⟨true, [], t, hapart.2, ⟨List.not_mem_nil, hfree, nofun, hr⟩,
        fun hnil => ⟨rfl, by rw [ht, ← hnil, List.append_nil]⟩⟩
    · have hfree := hsplat hkind t (.inr hr)
      exact ⟨true, t, [], hapart.2, ⟨hfree, List.not_mem_nil, nofun, hr.symm⟩,
        fun hnil => ⟨rfl, by rw [ht, hnil, List.append_nil]⟩⟩
  · have hfree : ∀ c : Choice, (Part.param q .none).Narrow present c →
        separator ∉ (Part.param q .none).text c := by
      intro c hc
      cases c with
      | none => exact List.not_mem_nil
      | some v => exact hc hkind v rfl
    exact ⟨true, _, _, hapart.2, ⟨hfree c hc, hfree c' hc', nofun, htext⟩, fun hw => ⟨rfl, hw⟩⟩

/-- A parameter that takes a separator along is cut off by that separator, or not there at all. -/
theorem cutsAlike_folded {q : Param} {fold : Fold} (hfold : fold ≠ .none)
    (hapart : partsApart present pending (.param q fold :: rest) = true)
    (hc : c.isSome = present ∧ ∀ v, c = some v → separator ∉ v)
    (hc' : c'.isSome = present ∧ ∀ v, c' = some v → separator ∉ v)
    (h : Abreast pending v v' ((Part.param q fold).text c ++ r)
      ((Part.param q fold).text c' ++ r')) :
    CutsAlike present (.param q fold) rest c c' v v' r r' := by
  obtain ⟨rfl, hfree⟩ := hc
  obtain ⟨hpresent, hfree'⟩ := hc'
  cases c with
  | none =>
      obtain rfl := Option.not_isSome_iff_eq_none.1 (Bool.not_eq_true _ ▸ hpresent)
      have hapart' : partsApart false pending rest = true := by
        cases fold with
        | none => exact absurd rfl hfold
        | before => exact hapart
        | after => exact hapart
      exact ⟨pending, v, v', hapart', h, fun hw => ⟨hw, rfl⟩⟩
  | some w =>
      obtain ⟨w', rfl⟩ := Option.isSome_iff_exists.1 hpresent
      cases fold with
      | none => exact absurd rfl hfold
      | before =>
          obtain ⟨hfront, hbehind⟩ := h.separator
          exact ⟨true, w, w', hapart, ⟨hfree w rfl, hfree' w' rfl, nofun, hbehind⟩,
            fun hw => ⟨hfront, congrArg (separator :: ·) hw⟩⟩
      | after =>
          obtain ⟨hpending, hrest⟩ : pending = false ∧ partsApart true false rest = true := by
            simpa [partsApart] using hapart
          obtain rfl := h.settled hpending
          have htext : w ++ separator :: r = w' ++ separator :: r' := by
            simpa [Part.text, Fold.wrap] using List.append_cancel_left h.text
          obtain ⟨rfl, rfl⟩ := append_separator_inj (hfree w rfl) (hfree' w' rfl) htext
          exact ⟨false, [], [], hrest, .nil, fun _ => ⟨rfl, rfl⟩⟩

/-- **Each part cuts the path in the same way**, as far as the texts behind it agree. -/
theorem cutsAlike (hapart : partsApart present pending (part :: rest) = true)
    (hc : part.Narrow present c) (hc' : part.Narrow present c')
    (hsplat : ∀ q fold, part = .param q fold → q.kind = .splat →
      ∀ t, r = t ++ r' ∨ r' = t ++ r → separator ∉ t)
    (h : Abreast pending v v' (part.text c ++ r) (part.text c' ++ r')) :
    CutsAlike present part rest c c' v v' r r' := by
  cases part with
  | literal text => exact cutsAlike_literal hapart h
  | param q fold =>
      cases fold with
      | none => exact cutsAlike_unfolded hapart hc hc' (hsplat q _ rfl) h
      | before => exact cutsAlike_folded (by decide) hapart hc hc' h
      | after => exact cutsAlike_folded (by decide) hapart hc hc' h

end Cuts

/-- Behind a splat no other parameter holds separators, so the number of separators tells where the
splat ends. -/
theorem separator_not_mem_of_textOf {rest : List Part} (hrest : rest.countP Part.isFlexible = 0)
    (hd : ∀ part ∈ rest, part.Narrow present (d part))
    (hd' : ∀ part ∈ rest, part.Narrow present (d' part)) {t : List Char}
    (h : textOf rest d = t ++ textOf rest d') : separator ∉ t := by
  have hparts : ∀ part ∈ rest,
      part.isFlexible = false ∨ ∃ q fold, part = .param q fold ∧ fold ≠ .none := fun part hpart =>
    .inl ((Bool.not_eq_true _).mp (List.countP_eq_zero.1 hrest part hpart))
  have hcount := congrArg (List.count separator) h
  rw [List.count_append, count_textOf hd hparts, count_textOf hd' hparts] at hcount
  exact List.count_eq_zero.1 (by omega)

/-- **There is only one way to take apart** what is kept apart: part by part, the path is cut at the
same places. -/
theorem text_eq_of_textOf_eq {parts : List Part} {pending : Bool}
    (hapart : partsApart present pending parts = true)
    (hone : parts.countP Part.isFlexible ≤ 1)
    (hd : ∀ part ∈ parts, part.Narrow present (d part))
    (hd' : ∀ part ∈ parts, part.Narrow present (d' part)) {v v' : List Char}
    (h : Abreast pending v v' (textOf parts d) (textOf parts d')) :
    v = v' ∧ ∀ part ∈ parts, part.text (d part) = part.text (d' part) := by
  induction parts generalizing pending v v' with
  | nil => exact ⟨by simpa [textOf] using h.text, by simp⟩
  | cons part rest ih =>
      obtain ⟨hpart, hrest⟩ := List.forall_mem_cons.1 hd
      obtain ⟨hpart', hrest'⟩ := List.forall_mem_cons.1 hd'
      rw [List.countP_cons] at hone
      rw [textOf_cons, textOf_cons] at h
      have hsplat : ∀ q fold, part = .param q fold → q.kind = .splat → ∀ t,
          textOf rest d = t ++ textOf rest d' ∨ textOf rest d' = t ++ textOf rest d →
            separator ∉ t := by
        rintro q fold rfl hkind t ht
        have hnone : rest.countP Part.isFlexible = 0 := by
          simp only [Part.isFlexible, hkind, Kind.isFlexible, if_true] at hone
          omega
        exact ht.elim (separator_not_mem_of_textOf hnone hrest hrest')
          (separator_not_mem_of_textOf hnone hrest' hrest)
      obtain ⟨pending', w, w', hapart', habreast, hfront⟩ :=
        cutsAlike hapart hpart hpart' hsplat h
      obtain ⟨hw, htexts⟩ := ih hapart' ((Nat.le_add_right _ _).trans hone) hrest hrest' habreast
      exact ⟨(hfront hw).1, List.forall_mem_cons.2 ⟨(hfront hw).2, htexts⟩⟩

/-! ## Present or absent -/

/-- What is given to a part, unless it is a splat, is a piece of one segment. -/
def Part.Whole (part : Part) (c : Choice) : Prop :=
  ∀ q fold, part = .param q fold → q.kind ≠ .splat → ∀ v, c = some v → separator ∉ v

theorem Part.Proper.fold_eq_none {q : Param} {fold : Fold} (hp : (Part.param q fold).Proper)
    (hinflexible : q.kind.isFlexible = false) : fold = .none := by
  cases hp with
  | param _ _ hfold =>
      refine Decidable.not_imp_symm hfold fun hoptional => ?_
      cases hkind : q.kind <;> simp_all [Kind.isFlexible, Kind.isOptional]

theorem Part.Proper.ne_splat {q : Param} {fold : Fold} (hp : (Part.param q fold).Proper)
    (hfold : fold ≠ .none) : q.kind ≠ .splat ∧ q.kind.isFlexible = true := by
  cases hp with
  | param _ _ hoptional =>
      have := hoptional hfold
      cases hkind : q.kind <;> simp_all [Kind.isFlexible, Kind.isOptional]

theorem Part.narrow_of_folded {q : Param} {fold : Fold} (hp : (Part.param q fold).Proper)
    (hfold : fold ≠ .none) {c : Choice} (hc : (Part.param q fold).Whole c) :
    (Part.param q fold).Narrow c.isSome c := by
  have hfree := hc q fold rfl (hp.ne_splat hfold).1
  cases fold with
  | none => exact absurd rfl hfold
  | before => exact ⟨rfl, hfree⟩
  | after => exact ⟨rfl, hfree⟩

theorem Part.narrow_of_unfolded {part : Part} {c : Choice} (hc : part.Whole c)
    (hunfolded : ∀ q fold, part = .param q fold → fold = .none) (present : Bool) :
    part.Narrow present c := by
  cases part with
  | literal text => trivial
  | param q fold =>
      obtain rfl := hunfolded q fold rfl
      exact hc q .none rfl

/-- A separator that is taken along counts. -/
theorem separators_lt {parts : List Part} {q : Param} {fold : Fold}
    (hmem : .param q fold ∈ parts) (hfold : fold ≠ .none) :
    (parts.map (Part.separators false)).sum < (parts.map (Part.separators true)).sum := by
  refine List.sum_lt_sum _ _ (fun part _ => ?_) ⟨_, hmem, ?_⟩
  · cases part with
    | literal text => exact Nat.le_refl _
    | param r f => cases f <;> simp [Part.separators]
  · cases fold with
    | none => exact absurd rfl hfold
    | before => exact Nat.zero_lt_one
    | after => exact Nat.zero_lt_one

theorem eq_or_inflexible {parts : List Part} (hone : parts.countP Part.isFlexible ≤ 1) {part : Part}
    (hmem : part ∈ parts) (hflexible : part.isFlexible = true) :
    ∀ other ∈ parts, other = part ∨ other.isFlexible = false := by
  obtain ⟨before, behind, rfl⟩ := List.append_of_mem hmem
  rw [List.countP_append, List.countP_cons_of_pos hflexible] at hone
  have hbefore := List.countP_eq_zero.1 (show before.countP Part.isFlexible = 0 by omega)
  have hbehind := List.countP_eq_zero.1 (show behind.countP Part.isFlexible = 0 by omega)
  intro other hother
  rcases List.mem_append.1 hother with hother | hother
  · exact .inr ((Bool.not_eq_true _).mp (hbefore other hother))
  · rcases List.mem_cons.1 hother with rfl | hother
    · exact .inl rfl
    · exact .inr ((Bool.not_eq_true _).mp (hbehind other hother))

/-- **The separators of a path tell whether its optional parameter is present**, if it takes one
along. -/
theorem exists_present {parts : List Part} (hp : ∀ part ∈ parts, part.Proper)
    (hone : parts.countP Part.isFlexible ≤ 1) (hd : ∀ part ∈ parts, part.Whole (d part))
    (hd' : ∀ part ∈ parts, part.Whole (d' part)) (h : textOf parts d = textOf parts d') :
    ∃ present, (∀ part ∈ parts, part.Narrow present (d part)) ∧
      ∀ part ∈ parts, part.Narrow present (d' part) := by
  -- At most one part takes a separator along. The number of separators in the text tells whether
  -- it did, since everything else has a number of them that does not vary.
  by_cases hfolded : ∃ q fold, .param q fold ∈ parts ∧ fold ≠ .none
  · obtain ⟨q, fold, hmem, hfold⟩ := hfolded
    have hproper := hp _ hmem
    have hothers := eq_or_inflexible hone hmem (hproper.ne_splat hfold).2
    have hnarrow : ∀ e : Part → Choice, (∀ part ∈ parts, part.Whole (e part)) →
        ∀ part ∈ parts, part.Narrow (e (.param q fold)).isSome (e part) := by
      intro e he part hpart
      rcases hothers part hpart with rfl | hinflexible
      · exact Part.narrow_of_folded hproper hfold (he _ hpart)
      · refine Part.narrow_of_unfolded (he part hpart) ?_ _
        rintro r f rfl
        exact (hp _ hpart).fold_eq_none hinflexible
    have hcount : ∀ e : Part → Choice, (∀ part ∈ parts, part.Whole (e part)) →
        (textOf parts e).count separator =
          (parts.map (Part.separators (e (.param q fold)).isSome)).sum := by
      intro e he
      refine count_textOf (hnarrow e he) fun part hpart => ?_
      rcases hothers part hpart with rfl | hinflexible
      · exact .inr ⟨q, fold, rfl, hfold⟩
      · exact .inl hinflexible
    have hsame : (d (.param q fold)).isSome = (d' (.param q fold)).isSome := by
      have hsums := congrArg (List.count separator) h
      rw [hcount d hd, hcount d' hd'] at hsums
      have hlt := separators_lt hmem hfold
      cases hc : (d (.param q fold)).isSome <;> cases hc' : (d' (.param q fold)).isSome
      · rfl
      · rw [hc, hc'] at hsums
        omega
      · rw [hc, hc'] at hsums
        omega
      · rfl
    exact ⟨_, hnarrow d hd, hsame ▸ hnarrow d' hd'⟩
  · have hunfolded : ∀ part ∈ parts, ∀ q fold, part = .param q fold → fold = .none := by
      rintro part hpart q fold rfl
      by_contra hne
      exact hfolded ⟨q, fold, hpart, hne⟩
    exact ⟨false,
      fun part hpart => Part.narrow_of_unfolded (hd part hpart) (hunfolded part hpart) _,
      fun part hpart => Part.narrow_of_unfolded (hd' part hpart) (hunfolded part hpart) _⟩

end Narrow

/-! ## There and back -/

theorem countP_isFlexible (parts : List Part) :
    parts.countP Part.isFlexible = (parts.filterMap Part.param?).countP (·.kind.isFlexible) := by
  rw [List.countP_filterMap]
  refine List.countP_congr fun part _ => ?_
  cases part <;> rfl

theorem valuesOf_built (parts : List Part) (values : Assoc String Value) :
    valuesOf parts (Part.built values) =
      (parts.filterMap Part.param?).filterMap fun q => (q.built? values).map (q.name, ·) := by
  rw [valuesOf, List.filterMap_filterMap]
  refine List.filterMap_congr fun part _ => ?_
  cases part with
  | literal text => rfl
  | param q fold =>
      show ((q.built? values).map String.toList).map (fun v => (q.name, String.ofList v)) = _
      rw [Option.map_map]
      simp [Function.comp_def, Part.param?]

theorem valuesOf_congr {parts : List Part} {d d' : Part → Choice}
    (h : ∀ part ∈ parts, d part = d' part) : valuesOf parts d = valuesOf parts d' :=
  List.filterMap_congr fun part hpart => by rw [h part hpart]

namespace Made

variable {p : Pattern} {tokens : List Token} {nodes : List Node} {s : Scope}

/-- What fits a part holds no separator, if no constraint takes one. -/
theorem whole_of_fits (h : Made p tokens nodes s) (hlocal : ∀ e ∈ p.constraints, e.2.isLocal = true)
    (hflat : ∀ e ∈ p.constraints, e.2.settlesFlat = true)
    (hnarrow : ∀ e ∈ p.constraints, ∀ v, separator ∈ v → e.2.fullMatch v = none) {part : Part}
    (hpart : part ∈ p.parts) {c : Choice} (hfits : part.Fits c) : part.Whole c := by
  rintro q fold rfl hsplat v rfl
  cases hkind : q.kind with
  | splat => exact absurd hkind hsplat
  | constrained con =>
      obtain ⟨alone, hnode, -⟩ := h.exists_constraint (h.mem_params hpart) hkind
      have hcon : q.kind.constraint? = some con := by rw [hkind]; rfl
      have hmatch := h.isSome_fullMatch hlocal hflat hpart hfits hcon hnode
      intro hsep
      rw [hnarrow _ (Assoc.mem_of_get?_eq_some hnode) v hsep] at hmatch
      cases hmatch
  | _ =>
      rw [Part.Fits, hkind] at hfits
      exact hfits.2

end Made

/-- **The round trip.** Where a separator stands between any two parameters, and at most one
parameter may be absent or hold separators, a path that was built yields the values it was built
from: an optional parameter without value is left out, and a splat without value is empty. -/
theorem extract_build {source : String} {p : Pattern} (h : compile source = .ok p)
    {tokens : List Token} (htokens : tokenize source = .ok tokens)
    (hapart : keptApart false tokens = true) (hone : p.params.countP (·.kind.isFlexible) ≤ 1)
    (hlocal : ∀ e ∈ p.constraints, e.2.isLocal = true)
    (hsettles : ∀ e ∈ p.constraints, e.2.settles = false)
    (hnarrow : ∀ e ∈ p.constraints, ∀ v, separator ∈ v → e.2.fullMatch v = none)
    {values : Assoc String Value}
    (hfeed : ∀ q ∈ p.params, q.kind = .splat →
      ∀ v, values.get? q.name = some v → '\n' ∉ v.plain.toList)
    {id : String} (hb : p.build values = .ok id) :
    p.extract id = .ok (some (p.params.filterMap fun q => (q.built? values).map (q.name, ·))) := by
  obtain ⟨hsource, tokens', nodes, s, hmade⟩ := made_of_compile h
  obtain rfl : tokens' = tokens :=
    Except.ok.inj (hmade.tokenized.symm.trans (hsource ▸ htokens))
  have hflat : ∀ e ∈ p.constraints, e.2.settlesFlat = true := fun e he =>
    settlesFlat_of_settles (hsettles e he)
  have hwhole := fun part (hpart : part ∈ p.parts) c (hfits : part.Fits c) =>
    hmade.whole_of_fits hlocal hflat hnarrow hpart hfits
  obtain ⟨hpasses, htext⟩ := passes_of_build hmade.proper hb
  have hbuilt := hmade.fits_of_build hfeed hb
  obtain ⟨place, hplace⟩ := hmade.exists_fullMatch_of_build hfeed hb hlocal hsettles
  obtain ⟨hfound, htext'⟩ := hmade.tiled hplace
  -- The tiling that is found is the one that was built.
  have htexts : textOf p.parts (Part.built values) = textOf p.parts (Part.choice p.groups place) :=
    htext.symm.trans htext'.symm
  rw [← hmade.filterMap_param?, ← countP_isFlexible] at hone
  obtain ⟨present, hd, hd'⟩ := exists_present hmade.proper hone
    (fun part hpart => hwhole part hpart _ (hbuilt part hpart))
    (fun part hpart => hwhole part hpart _ (hfound part hpart)) htexts
  have hparts : partsApart present false p.parts = true := by
    rw [hmade.parts]
    exact partsApart_layout hapart
  obtain ⟨-, hsame⟩ := text_eq_of_textOf_eq hparts hone hd hd'
    ⟨List.not_mem_nil, List.not_mem_nil, fun _ => rfl, congrArg ([] ++ ·) htexts⟩
  have hchoices : ∀ part ∈ p.parts, part.choice p.groups place = part.built values :=
    fun part hpart =>
      Part.text_injective (hfound part hpart) (hbuilt part hpart) (hsame part hpart).symm
  have hclean : (p.parts.all fun part => part.isClean (part.choice p.groups place)) = true := by
    refine List.all_eq_true.2 fun part hpart => ?_
    rw [hchoices part hpart]
    exact isClean_of_passes (hpasses part hpart)
  rw [hmade.extract_eq, hplace, Option.bind_some, if_pos hclean, valuesOf_congr hchoices,
    valuesOf_built, hmade.filterMap_param?]

/-- A year, a language that is left out, and a name. -/
theorem extract_build_year : ∃ p tokens,
    compile "\x7byear:[0-9]+\x7d/\x7b?lang\x7d/\x7bslug\x7d.md" = .ok p ∧
    tokenize "\x7byear:[0-9]+\x7d/\x7b?lang\x7d/\x7bslug\x7d.md" = .ok tokens ∧
    keptApart false tokens = true ∧ p.params.countP (·.kind.isFlexible) ≤ 1 ∧
    (∀ e ∈ p.constraints, e.2.isLocal = true) ∧ (∀ e ∈ p.constraints, e.2.settles = false) ∧
    (∀ e ∈ p.constraints, ∀ v, separator ∈ v → e.2.fullMatch v = none) ∧
    p.build [("year", .int 2024), ("lang", .null), ("slug", .text "intro")] =
      .ok "2024/intro.md" ∧
    p.extract "2024/intro.md" = .ok (some [("year", "2024"), ("slug", "intro")]) := by
  have hfacts :
      (compile "\x7byear:[0-9]+\x7d/\x7b?lang\x7d/\x7bslug\x7d.md").toOption.map (fun p =>
        ((p.constraints.all fun e => e.2.isLocal && !e.2.settles && e.2.shuns separator) &&
          p.params.all (·.kind ≠ .splat) && p.params.countP (·.kind.isFlexible) ≤ 1,
          (p.build [("year", .int 2024), ("lang", .null), ("slug", .text "intro")]).toOption,
          p.params.filterMap fun q => (q.built?
            [("year", .int 2024), ("lang", .null), ("slug", .text "intro")]).map (q.name, ·))) =
        some (true, some "2024/intro.md", [("year", "2024"), ("slug", "intro")]) := by
    decide +kernel
  have htokens :
      (tokenize "\x7byear:[0-9]+\x7d/\x7b?lang\x7d/\x7bslug\x7d.md").toOption.map
        (keptApart false) = some true := by decide +kernel
  obtain ⟨p, hp, hfacts⟩ := exists_ok_of_toOption_map hfacts
  obtain ⟨tokens, htokens, hapart⟩ := exists_ok_of_toOption_map htokens
  obtain ⟨hfacts, hbuild, hvalues⟩ : _ ∧ _ ∧ _ := by simpa only [Prod.mk.injEq] using hfacts
  simp only [Bool.and_eq_true, List.all_eq_true, Bool.not_eq_true', decide_eq_true_eq] at hfacts
  obtain ⟨⟨hconstraints, hsplat⟩, hone⟩ := hfacts
  have hlocal : ∀ e ∈ p.constraints, e.2.isLocal = true := fun e he => (hconstraints e he).1.1
  have hsettles : ∀ e ∈ p.constraints, e.2.settles = false := fun e he => (hconstraints e he).1.2
  have hnarrow : ∀ e ∈ p.constraints, ∀ v, separator ∈ v → e.2.fullMatch v = none :=
    fun e he v hv => fullMatch_eq_none_of_shuns (hconstraints e he).2 hv
  have hb := eq_ok_of_toOption hbuild
  have hextract := extract_build hp htokens hapart hone hlocal hsettles hnarrow
    (fun q hq hkind => absurd hkind (hsplat q hq)) hb
  rw [hvalues] at hextract
  exact ⟨p, tokens, hp, htokens, hapart, hone, hlocal, hsettles, hnarrow, hb, hextract⟩

/-- A possessive repetition takes the literal behind it as well, and does not give it back. -/
theorem extract_fails_on_possessive : ∃ p tokens, compile "\x7bx:a*+\x7da" = .ok p ∧
    tokenize "\x7bx:a*+\x7da" = .ok tokens ∧ keptApart false tokens = true ∧
    p.params.countP (·.kind.isFlexible) ≤ 1 ∧
    (∀ e ∈ p.constraints, e.2.isLocal = true) ∧
    (∀ e ∈ p.constraints, ∀ v, separator ∈ v → e.2.fullMatch v = none) ∧
    p.build [("x", .text "a")] = .ok "aa" ∧ p.extract "aa" = .ok none := by
  have hfacts : (compile "\x7bx:a*+\x7da").toOption.map (fun p =>
      (p.constraints.all fun e => e.2.isLocal && e.2.shuns separator) &&
        p.params.countP (·.kind.isFlexible) ≤ 1 &&
        (p.build [("x", .text "a")]).toOption = some "aa" &&
        (p.extract "aa").toOption = some none) = some true := by decide +kernel
  have htokens : (tokenize "\x7bx:a*+\x7da").toOption.map (keptApart false) = some true := by
    decide +kernel
  obtain ⟨p, hp, hfacts⟩ := exists_ok_of_toOption_map hfacts
  obtain ⟨tokens, htokens, hapart⟩ := exists_ok_of_toOption_map htokens
  simp only [Bool.and_eq_true, List.all_eq_true, decide_eq_true_eq] at hfacts
  obtain ⟨⟨⟨hconstraints, hone⟩, hbuild⟩, hextract⟩ := hfacts
  exact ⟨p, tokens, hp, htokens, hapart, hone, fun e he => (hconstraints e he).1,
    fun e he v hv => fullMatch_eq_none_of_shuns (hconstraints e he).2 hv,
    eq_ok_of_toOption hbuild, eq_ok_of_toOption hextract⟩

end Winnow.Pattern
