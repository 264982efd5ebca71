import Mathlib.Tactic

/-!
# Stretches of a text

A stretch is given by the places where it begins and ends, and what is left of a text when
stretches are cut out of it is its characters at all other places (`without`).
-/

namespace Winnow

/-- The characters of a text from `start` on, before `stop`. -/
structure Stretch where
  start : Nat
  stop : Nat
  deriving DecidableEq, Repr

namespace Stretch

instance : Membership Nat Stretch := ⟨fun s i => s.start ≤ i ∧ i < s.stop⟩

theorem mem_iff {s : Stretch} {i : Nat} : i ∈ s ↔ s.start ≤ i ∧ i < s.stop := Iff.rfl

instance (i : Nat) (s : Stretch) : Decidable (i ∈ s) :=
  inferInstanceAs (Decidable (s.start ≤ i ∧ i < s.stop))

/-- Two stretches that share no character. -/
def Apart (s t : Stretch) : Prop := ∀ i ∈ s, i ∉ t

theorem Apart.symm {s t : Stretch} (h : s.Apart t) : t.Apart s := fun i hi hs => h i hs hi

theorem apart_of_le {s t : Stretch} (h : s.stop ≤ t.start) : s.Apart t := by
  intro i hs ht
  have := (mem_iff.1 hs).2
  have := (mem_iff.1 ht).1
  omega

/-- The part of a text that a stretch covers. -/
def cover (s : Stretch) (text : List Char) : List Char := (text.take s.stop).drop s.start

theorem cover_append {s : Stretch} {a v b : List Char} (hstart : s.start = a.length)
    (hstop : s.stop = s.start + v.length) : s.cover (a ++ (v ++ b)) = v := by
  rw [cover, hstop, hstart, List.drop_take, List.drop_left, Nat.add_sub_cancel_left, List.take_left]

end Stretch

/-! ## Cutting out -/

/-- A text that starts at `n`, without the characters in the stretches `cuts`. -/
def without (cuts : List Stretch) (n : Nat) : List Char → List Char
  | [] => []
  | c :: rest =>
    if ∃ s ∈ cuts, n ∈ s then without cuts (n + 1) rest else c :: without cuts (n + 1) rest

section Without

variable {cuts : List Stretch} {s : Stretch} {n : Nat} {text : List Char}

theorem without_append (cuts : List Stretch) (n : Nat) (a b : List Char) :
    without cuts n (a ++ b) = without cuts n a ++ without cuts (n + a.length) b := by
  induction a generalizing n with
  | nil => rfl
  | cons c a ih =>
      have hlength : n + (c :: a).length = n + 1 + a.length := by
        rw [List.length_cons]
        omega
      rw [List.cons_append, without, without, ih, hlength]
      split <;> rfl

theorem without_eq_self (h : ∀ s ∈ cuts, n + text.length ≤ s.start) :
    without cuts n text = text := by
  induction text generalizing n with
  | nil => rfl
  | cons c text ih =>
      rw [List.length_cons] at h
      have hkept : ¬ ∃ s ∈ cuts, n ∈ s := by
        rintro ⟨s, hs, hn⟩
        have := h s hs
        have := (Stretch.mem_iff.1 hn).1
        omega
      rw [without, if_neg hkept, ih fun s hs => by have := h s hs; omega]

theorem without_eq_nil (hs : s ∈ cuts) (hstart : s.start ≤ n) (hstop : n + text.length ≤ s.stop) :
    without cuts n text = [] := by
  induction text generalizing n with
  | nil => rfl
  | cons c text ih =>
      rw [List.length_cons] at hstop
      have hcut : ∃ s ∈ cuts, n ∈ s := ⟨s, hs, Stretch.mem_iff.2 ⟨hstart, by omega⟩⟩
      rw [without, if_pos hcut, ih (by omega) (by omega)]

/-- What was cut out in front of a text does not matter for it. -/
theorem without_cons_of_le (h : s.stop ≤ n) : without (s :: cuts) n text = without cuts n text := by
  induction text generalizing n with
  | nil => rfl
  | cons c text ih =>
      have hpast : n ∉ s := by
        intro hn
        have := (Stretch.mem_iff.1 hn).2
        omega
      rw [without, without, ih (by omega)]
      simp only [List.exists_mem_cons_iff, hpast, false_or]

end Without

end Winnow
