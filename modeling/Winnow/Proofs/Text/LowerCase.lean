import Mathlib
import Winnow.Text.Character

/-!
# Lower case

The table of lower case leads out of itself: the lower case of a character is not in any of its runs
(`toLowerChar_toLowerChar`). So what is in lower case stays as it is wherever it stands
(`isLower_of_mem_lower`), although the lower case of a text looks at the neighbours of a character,
and a text in lower case is its own lower case (`lower_lower`).
-/

namespace Winnow.Text

/-- A character that is its own lower case, whatever is around it. -/
def IsLower (c : Char) : Prop := ∀ before after, lowerAt before c after = [c]

/-! ## Runs of the table -/

/-- Runs `(first, last, shift, step)` of the table. -/
abbrev Run := Nat × Nat × Int × Nat

/-- Whether a run holds the character with this number. -/
def Run.holds (r : Run) (n : Nat) : Bool :=
  r.1 ≤ n && n ≤ r.2.1 && (n - r.1) % r.2.2.2 == 0

/-- Where a run is moved to. -/
def Run.first (r : Run) : Nat := Int.toNat (r.1 + r.2.2.1)

def Run.last (r : Run) : Nat := Int.toNat (r.2.1 + r.2.2.1)

/-- Whether a run goes in steps of two. A single character does so as well. -/
def Run.hasSteps (r : Run) : Bool := Nat.beq r.2.2.2 2 || Nat.beq r.1 r.2.1

/-- Whether `r` is moved past `r'`: to one side of it, or in between its steps. -/
def Run.passes (r r' : Run) : Bool :=
  Nat.blt r.last r'.1 || Nat.blt r'.2.1 r.first ||
    (Nat.beq r'.2.2.2 2 && r.hasSteps && Nat.beq ((r.first + r'.1) % 2) 1)

theorem Run.not_holds_of_passes {r r' : Run} {n : Nat} (h : r.passes r' = true)
    (hr : r.holds n = true) (hshift : 0 ≤ r.1 + r.2.2.1) :
    r'.holds (Int.toNat (n + r.2.2.1)) = false := by
  obtain ⟨lo, hi, shift, step⟩ := r
  obtain ⟨lo', hi', shift', step'⟩ := r'
  simp only [holds, passes, first, last, hasSteps, Bool.or_eq_true, Bool.and_eq_true,
    Bool.and_eq_false_iff, decide_eq_true_eq, decide_eq_false_iff_not, beq_iff_eq,
    beq_eq_false_iff_ne, Nat.blt_eq, Nat.beq_eq] at h hr hshift ⊢
  obtain ⟨⟨hlo, hhi⟩, hstep⟩ := hr
  rcases h with (h | h) | ⟨⟨rfl, rfl | rfl⟩, h⟩
  · omega
  · omega
  · omega
  · omega

theorem passes_all : (lowercaseRuns.all fun r =>
    decide (0 ≤ r.1 + r.2.2.1) && lowercaseRuns.all (Run.passes r)) = true := by
  decide +kernel

/-! ## Single characters -/

theorem toLowerChar_eq (c : Char) : toLowerChar c =
    match lowercaseRuns.find? (Run.holds · c.toNat) with
    | some (_, _, shift, _) => Char.ofNat (Int.toNat (c.toNat + shift))
    | none => c := rfl

theorem toLowerChar_of_none {c : Char} (h : lowercaseRuns.find? (Run.holds · c.toNat) = none) :
    toLowerChar c = c := by
  rw [toLowerChar_eq, h]

theorem toLowerChar_of_some {c : Char} {r : Run}
    (h : lowercaseRuns.find? (Run.holds · c.toNat) = some r) :
    toLowerChar c = Char.ofNat (Int.toNat (c.toNat + r.2.2.1)) := by
  rw [toLowerChar_eq, h]

/-- The lower case of a character is in no run of the table. -/
theorem toLowerChar_toLowerChar (c : Char) : toLowerChar (toLowerChar c) = toLowerChar c := by
  cases hfind : lowercaseRuns.find? (Run.holds · c.toNat) with
  | none => rw [toLowerChar_of_none hfind, toLowerChar_of_none hfind]
  | some r =>
      rw [toLowerChar_of_some hfind]
      refine toLowerChar_of_none (List.find?_eq_none.2 fun r' hr' => ?_)
      have hholds := List.find?_some hfind
      have hpass := List.all_eq_true.1 passes_all r (List.mem_of_find?_eq_some hfind)
      obtain ⟨hshift, hpasses⟩ := Bool.and_eq_true_iff.1 hpass
      rw [Bool.not_eq_true, Char.toNat_ofNat]
      split
      · exact Run.not_holds_of_passes (List.all_eq_true.1 hpasses r' hr') hholds
          (of_decide_eq_true hshift)
      · -- What is no character is taken for the first one, which no run holds.
        have hzero : (lowercaseRuns.all fun r' => !Run.holds r' 0) = true := by decide +kernel
        simpa using List.all_eq_true.1 hzero r' hr'

theorem isLower_of_toLowerChar {c : Char} (h : toLowerChar c = c) : IsLower c := by
  have hsigma : c ≠ 'Σ' := by
    rintro rfl
    revert h
    decide +kernel
  have hdotted : c ≠ 'İ' := by
    rintro rfl
    revert h
    decide +kernel
  intro before after
  rw [lowerAt, if_neg (by simpa using hsigma), if_neg (by simpa using hdotted), h]

/-! ## Texts -/

theorem isLower_of_mem_lowerAt {before after : List Char} {c d : Char}
    (h : d ∈ lowerAt before c after) : IsLower d := by
  refine isLower_of_toLowerChar ?_
  rw [lowerAt] at h
  split at h
  · split at h
    · rw [List.mem_singleton.1 h]
      decide +kernel
    · rw [List.mem_singleton.1 h]
      decide +kernel
  · split at h
    · rcases List.mem_pair.1 h with rfl | rfl
      · decide +kernel
      · decide +kernel
    · rw [List.mem_singleton.1 h]
      exact toLowerChar_toLowerChar c

theorem isLower_of_mem_lower {s : List Char} {d : Char} (h : d ∈ lower s) : IsLower d := by
  suffices hafter : ∀ before, d ∈ lowerAfter before s → IsLower d from hafter [] h
  clear h
  induction s with
  | nil => rintro before ⟨⟩
  | cons c s ih =>
      intro before h
      rw [lowerAfter] at h
      rcases List.mem_append.1 h with h | h
      · exact isLower_of_mem_lowerAt h
      · exact ih _ h

theorem lower_eq_self {s : List Char} (h : ∀ c ∈ s, IsLower c) : lower s = s := by
  suffices hafter : ∀ before, lowerAfter before s = s from hafter []
  induction s with
  | nil => exact fun _ => rfl
  | cons c s ih =>
      intro before
      obtain ⟨hc, hs⟩ := List.forall_mem_cons.1 h
      rw [lowerAfter, hc, ih hs, List.singleton_append]

/-- **What is in lower case stays as it is.** -/
theorem lower_lower (s : List Char) : lower (lower s) = lower s :=
  lower_eq_self fun _ => isLower_of_mem_lower

end Winnow.Text
