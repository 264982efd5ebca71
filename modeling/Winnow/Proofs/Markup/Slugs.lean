import Mathlib
import Winnow.Markup.Slug
import Winnow.Proofs.Text.LowerCase

/-!
# Slugs are normal forms

A slug is made of letters, numerals and single hyphens between them (`IsSlug`). The words of a text
joined by hyphens are what is left of it when every run of separators becomes one hyphen and the
hyphens at both ends are dropped (`slug_eq_stripOf`), and from such a text its words are read back.
So the texts in this form and in lower case are those that are their own slugs
(`slug_eq_self_iff`), and the slug of any text is one of them (`slug_normal`).
-/

namespace Winnow.Markup

open Text

/-- Letters, numerals, and hyphens that each stand alone between two of them. -/
structure IsSlug (s : List Char) : Prop where
  letters : ∀ c ∈ s, c = '-' ∨ isWord c = true ∧ c ≠ '_'
  first : s.head? ≠ some '-'
  last : s.getLast? ≠ some '-'
  single : ¬ ['-', '-'] <:+: s

/-! ## Words -/

section Words

variable {c : Char} {s w : List Char}

/-- A separator ends a word, and what follows it has words of its own. -/
theorem wordsAux_append_separator (hc : isSeparator c = true) (word s rest : List Char) :
    wordsAux word (s ++ c :: rest) = wordsAux word s ++ words rest := by
  induction s generalizing word with
  | nil =>
      rw [List.nil_append, wordsAux.eq_2, if_pos hc, wordsAux.eq_1, words]
      split <;> rfl
  | cons d s ih =>
      rw [List.cons_append, wordsAux, wordsAux, ih, ih]
      split
      · split <;> rfl
      · rfl

theorem wordsAux_separator (hc : isSeparator c = true) (word rest : List Char) :
    wordsAux word (c :: rest) = wordsAux word [] ++ words rest :=
  wordsAux_append_separator hc word [] rest

theorem words_separator (hc : isSeparator c = true) (rest : List Char) :
    words (c :: rest) = words rest :=
  wordsAux_separator hc [] rest

theorem wordsAux_letter (hc : isSeparator c = false) (word rest : List Char) :
    wordsAux word (c :: rest) = wordsAux (c :: word) rest := by
  rw [wordsAux, if_neg (by simp [hc])]

/-- Separators in front of a text belong to no word. -/
theorem words_dropWhile {p : Char → Bool} (hp : ∀ c, p c = true → isSeparator c = true)
    (s : List Char) : words (s.dropWhile p) = words s := by
  induction s with
  | nil => rfl
  | cons c s ih =>
      rw [List.dropWhile_cons]
      split
      next h => rw [ih, words_separator (hp c h)]
      next => rfl

/-- Separators behind a text belong to no word. -/
theorem words_rdropWhile {p : Char → Bool} (hp : ∀ c, p c = true → isSeparator c = true)
    (s : List Char) : words (s.rdropWhile p) = words s := by
  induction s using List.reverseRecOn with
  | nil => rw [List.rdropWhile_nil]
  | append_singleton s c ih =>
      rw [List.rdropWhile_concat]
      split
      next h =>
          have hsame : words (s ++ [c]) = words s ++ words [] :=
            wordsAux_append_separator (hp c h) [] s []
          have hnone : words [] = [] := rfl
          rw [ih, hsame, hnone, List.append_nil]
      next => rfl

/-- Stripping a text of separators leaves its words. -/
theorem words_stripOf {p : Char → Bool} (hp : ∀ c, p c = true → isSeparator c = true)
    (s : List Char) : words (stripOf p s) = words s :=
  (words_rdropWhile hp (s.dropWhile p)).trans (words_dropWhile hp s)

theorem stripOf_isInfix (p : Char → Bool) (s : List Char) : stripOf p s <:+: s :=
  (List.rdropWhile_prefix p (s.dropWhile p)).isInfix.trans (List.dropWhile_suffix p).isInfix

end Words

/-! ## Runs of separators -/

/-- Every longest run of separators replaced by a hyphen. -/
def collapse : List Char → List Char
  | [] => []
  | c :: rest =>
    if isSeparator c then '-' :: collapse (rest.dropWhile isSeparator) else c :: collapse rest
termination_by s => s.length
decreasing_by
  · exact Nat.lt_succ_of_le (List.dropWhile_suffix _).length_le
  · exact Nat.lt_succ_self _

section Collapsing

variable {c : Char} {s : List Char}

theorem wordsAux_collapse (word s : List Char) : wordsAux word (collapse s) = wordsAux word s := by
  fun_induction collapse s generalizing word with
  | case1 => rfl
  | case2 c rest hc ih =>
      have hrest : words (collapse (rest.dropWhile isSeparator)) = words rest :=
        (ih []).trans (words_dropWhile (fun _ h => h) rest)
      rw [wordsAux_separator rfl, wordsAux_separator hc, hrest]
  | case3 c rest hc ih =>
      have hletter : isSeparator c = false := Bool.not_eq_true _ ▸ hc
      rw [wordsAux_letter hletter, wordsAux_letter hletter, ih]

theorem mem_collapse (h : c ∈ collapse s) : c = '-' ∨ c ∈ s ∧ isSeparator c = false := by
  fun_induction collapse s with
  | case1 => cases h
  | case2 d rest hd ih =>
      rcases List.mem_cons.1 h with rfl | h
      · exact .inl rfl
      · refine (ih h).imp_right fun ⟨hmem, hc⟩ => ⟨List.mem_cons_of_mem _ ?_, hc⟩
        exact (List.dropWhile_suffix _).subset hmem
  | case3 d rest hd ih =>
      rcases List.mem_cons.1 h with rfl | h
      · exact .inr ⟨List.mem_cons_self, Bool.not_eq_true _ ▸ hd⟩
      · exact (ih h).imp_right fun ⟨hmem, hc⟩ => ⟨List.mem_cons_of_mem _ hmem, hc⟩

/-- Where no separator begins a text no hyphen does. -/
theorem head?_collapse (h : ∀ c, s.head? = some c → isSeparator c = false) :
    (collapse s).head? ≠ some '-' := by
  cases s with
  | nil =>
      rw [collapse]
      rintro ⟨⟩
  | cons c rest =>
      have hc := h c rfl
      rw [collapse, if_neg (by simp [hc])]
      rintro ⟨⟩
      cases hc

theorem head?_dropWhile {p : Char → Bool} (h : (s.dropWhile p).head? = some c) : p c = false := by
  have hnot := List.head?_dropWhile_not p s
  rw [h] at hnot
  exact hnot

theorem single_collapse (s : List Char) : ¬ ['-', '-'] <:+: collapse s := by
  fun_induction collapse s with
  | case1 => simp
  | case2 c rest hc ih =>
      rw [List.infix_cons_iff, not_or]
      refine ⟨fun h => ?_, ih⟩
      obtain ⟨behind, hbehind⟩ := (List.cons_prefix_cons.1 h).2
      refine head?_collapse (s := rest.dropWhile isSeparator) (fun _ => head?_dropWhile) ?_
      rw [← hbehind]
      rfl
  | case3 c rest hc ih =>
      rw [List.infix_cons_iff, not_or]
      refine ⟨fun h => ?_, ih⟩
      obtain ⟨rfl, -⟩ := List.cons_prefix_cons.1 h
      exact hc rfl

end Collapsing

/-! ## Texts in the form of a slug -/

section Form

variable {c : Char} {s : List Char}

theorem isWord_of_isKept (h : isKept c = true) (hc : isSeparator c = false) :
    isWord c = true ∧ c ≠ '_' := by
  simp only [isKept, isSeparator, Bool.or_eq_true, Bool.or_eq_false_iff, beq_iff_eq,
    beq_eq_false_iff_ne] at h hc
  obtain ⟨⟨hspace, hline⟩, hhyphen⟩ := hc
  simp_all

theorem IsSlug.isKept (h : IsSlug s) (hc : c ∈ s) : isKept c = true := by
  rw [Markup.isKept]
  rcases h.letters c hc with rfl | ⟨hword, -⟩
  · decide +kernel
  · rw [hword]
    rfl

theorem exists_of_inRanges {n : Nat} {ranges : List (Nat × Nat)} (h : inRanges n ranges = true) :
    ∃ r ∈ ranges, r.1 ≤ n ∧ n ≤ r.2 := by
  induction ranges with
  | nil => cases h
  | cons r ranges ih =>
      rw [inRanges] at h
      split at h
      · cases h
      next hlo =>
          rcases Bool.or_eq_true_iff.1 h with hhi | h
          · exact ⟨r, List.mem_cons_self, Nat.le_of_not_lt hlo, of_decide_eq_true hhi⟩
          · obtain ⟨r', hr', hn⟩ := ih h
            exact ⟨r', List.mem_cons_of_mem _ hr', hn⟩

theorem not_isAlphanumeric_of_isSpace (h : isSpace c = true) : isAlphanumeric c = false := by
  obtain ⟨r, hr, hlo, hhi⟩ := exists_of_inRanges h
  have hapart : (spaceRanges.all fun r => (List.range (r.2 - r.1 + 1)).all fun k =>
      !inRanges (r.1 + k) alphanumericRanges) = true := by decide +kernel
  have hk := List.all_eq_true.1 (List.all_eq_true.1 hapart r hr) (c.toNat - r.1)
    (List.mem_range.2 (by omega))
  rw [Nat.add_sub_cancel' hlo] at hk
  simpa [isAlphanumeric] using hk

/-- No letter of any script is white space. -/
theorem isSpace_eq_false_of_isWord (h : isWord c = true) : isSpace c = false := by
  rcases Bool.or_eq_true_iff.1 h with h | h
  · by_contra hspace
    rw [not_isAlphanumeric_of_isSpace (Bool.eq_true_of_not_eq_false hspace)] at h
    cases h
  · rw [beq_iff_eq.1 h]
    decide +kernel

theorem isSeparator_eq_false (h : isWord c = true) (hline : c ≠ '_') : isSeparator c = false := by
  have hhyphen : c ≠ '-' := by
    rintro rfl
    revert h
    decide +kernel
  simp [isSeparator, isSpace_eq_false_of_isWord h, hline, hhyphen]

/-- What is left of a text whose characters are all kept has the form of a slug. -/
theorem isSlug_stripOf_collapse (h : ∀ c ∈ s, Markup.isKept c = true) :
    IsSlug (stripOf (· == '-') (collapse s)) := by
  have hstrip : stripOf (· == '-') (collapse s) =
      ((collapse s).dropWhile (· == '-')).rdropWhile (· == '-') := rfl
  have hpart := stripOf_isInfix (· == '-') (collapse s)
  rw [hstrip] at hpart ⊢
  constructor
  · intro c hc
    refine (mem_collapse (hpart.subset hc)).imp_right fun ⟨hmem, hletter⟩ => ?_
    exact isWord_of_isKept (h c hmem) hletter
  · intro hfirst
    obtain ⟨behind, hbehind⟩ :=
      List.rdropWhile_prefix (· == '-') ((collapse s).dropWhile (· == '-'))
    have hhead : ((collapse s).dropWhile (· == '-')).head? = some '-' := by
      rw [← hbehind, List.head?_append, hfirst]
      rfl
    cases head?_dropWhile hhead
  · intro hlast
    have hne : ((collapse s).dropWhile (· == '-')).rdropWhile (· == '-') ≠ [] := by
      intro hnil
      rw [hnil] at hlast
      cases hlast
    rw [List.getLast?_eq_some_getLast hne, Option.some_inj] at hlast
    exact List.rdropWhile_last_not _ _ hne (by rw [hlast]; rfl)
  · exact fun hdouble => single_collapse s (hdouble.trans hpart)

/-- The words of a text in the form of a slug, joined by hyphens, are the text. Here a word has
begun with the reversed text `word`. -/
theorem intercalate_wordsAux {word : List Char}
    (hletters : ∀ c ∈ s, c = '-' ∨ isWord c = true ∧ c ≠ '_')
    (hfirst : word = [] → s.head? ≠ some '-') (hlast : s.getLast? ≠ some '-')
    (hsingle : ¬ ['-', '-'] <:+: s) :
    ['-'].intercalate (wordsAux word s) = word.reverse ++ s := by
  induction s generalizing word with
  | nil => cases word <;> simp [wordsAux]
  | cons c s ih =>
      obtain ⟨hc, hs⟩ := List.forall_mem_cons.1 hletters
      have hsingle' : ¬ ['-', '-'] <:+: s := fun h => hsingle (List.infix_cons h)
      have hlast' : s.getLast? ≠ some '-' := by
        intro h
        rw [List.getLast?_cons, h] at hlast
        exact hlast rfl
      rcases hc with rfl | ⟨hword, hline⟩
      · -- A hyphen ends the word that has begun, and another one begins behind it.
        have hword : word ≠ [] := fun h => hfirst h rfl
        have hnext : s.head? ≠ some '-' := by
          intro h
          obtain ⟨rest, rfl⟩ := List.head?_eq_some_iff.1 h
          exact hsingle ⟨[], rest, rfl⟩
        have hrest : ['-'].intercalate (words s) = s := ih hs (fun _ => hnext) hlast' hsingle'
        have hne : words s ≠ [] := by
          intro hnil
          rw [hnil] at hrest
          rw [← hrest] at hlast
          exact hlast rfl
        rw [wordsAux_separator rfl, wordsAux, if_neg (by simpa using hword), List.singleton_append,
          List.intercalate_cons_of_ne_nil hne, hrest, List.append_assoc, List.singleton_append]
      · rw [wordsAux_letter (isSeparator_eq_false hword hline),
          ih hs (by simp) hlast' hsingle', List.reverse_cons, List.append_assoc,
          List.singleton_append]

theorem IsSlug.intercalate_words (h : IsSlug s) : ['-'].intercalate (words s) = s :=
  intercalate_wordsAux h.letters (fun _ => h.first) h.last h.single

end Form

/-! ## Slugs -/

variable (s : List Char)

/-- A slug is what is left of a text when it is put into lower case, loses its punctuation, has
every run of separators replaced by a hyphen, and loses the hyphens at its ends. -/
theorem slug_eq_stripOf :
    slug s = stripOf (· == '-') (collapse ((lower s).filter isKept)) := by
  have hkept : ∀ c ∈ (lower s).filter isKept, isKept c = true :=
    fun _ hc => (List.mem_filter.1 hc).2
  have hhyphen : ∀ c, (c == '-') = true → isSeparator c = true := by
    intro c hc
    rw [beq_iff_eq.1 hc]
    rfl
  have hwords : words (stripOf (· == '-') (collapse ((lower s).filter isKept))) =
      words ((lower s).filter isKept) :=
    (words_stripOf hhyphen _).trans (wordsAux_collapse [] _)
  rw [slug, ← hwords, (isSlug_stripOf_collapse hkept).intercalate_words]

theorem isSlug_slug : IsSlug (slug s) := by
  rw [slug_eq_stripOf]
  exact isSlug_stripOf_collapse fun _ hc => (List.mem_filter.1 hc).2

theorem lower_slug : lower (slug s) = slug s := by
  refine lower_eq_self fun c hc => ?_
  rw [slug_eq_stripOf] at hc
  rcases mem_collapse ((stripOf_isInfix _ _).subset hc) with rfl | ⟨hmem, -⟩
  · exact isLower_of_toLowerChar (by decide +kernel)
  · exact isLower_of_mem_lower (List.mem_filter.1 hmem).1

variable {s}

/-- **The texts that are their own slugs** are those in the form of a slug and in lower case. -/
theorem slug_eq_self_iff : slug s = s ↔ IsSlug s ∧ lower s = s := by
  constructor
  · intro h
    rw [← h]
    exact ⟨isSlug_slug s, lower_slug s⟩
  · rintro ⟨hslug, hlower⟩
    have hkept : s.filter isKept = s := List.filter_eq_self.2 fun _ => hslug.isKept
    rw [slug, hlower, hkept, hslug.intercalate_words]

/-- **Slugs are normal forms.** The slug of any text has letters, numerals and hyphens, no hyphen at
either end and no two side by side, and is its own slug. -/
theorem slug_normal (s : List Char) : IsSlug (slug s) ∧ slug (slug s) = slug s :=
  ⟨isSlug_slug s, slug_eq_self_iff.2 ⟨isSlug_slug s, lower_slug s⟩⟩

example : slug "_Two words -- & more!".toList = "two-words-more".toList := by decide +kernel

end Winnow.Markup
