import Winnow.Proofs.Files.Scanning
import Winnow.Proofs.Text.Splitting

/-!
# Paths without links

What is left when all links in a path have been replaced passes no link, neither as a whole nor on
the way (`direct_of_realNames`), and where there are none, nothing is replaced
(`realNames_of_direct`). So finding the real path of a real path changes nothing.
-/

namespace Winnow.Files.Disk

variable {root : Entries} {depth : Nat} {opened : List (List String)}
  {done names result : List String}

/-- Reversed names that pass no link: each is the name of an entry, and no beginning of the path
leads to a link. -/
structure Direct (root : Entries) (done : List String) : Prop where
  plain : ∀ name ∈ done, IsPlain name ∧ '/' ∉ name.toList
  noLink : ∀ tail, tail <:+ done → ∀ target, (Entry.dir root).at? tail.reverse ≠ some (.link target)

namespace Direct

theorem nil (root : Entries) : Direct root [] where
  plain := by simp
  noLink := by
    intro tail htail target
    rw [List.suffix_nil.1 htail]
    rintro ⟨⟩

theorem cons (h : Direct root done) {name : String} (hplain : IsPlain name)
    (hfree : '/' ∉ name.toList)
    (hlink : ∀ target, (Entry.dir root).at? (name :: done).reverse ≠ some (.link target)) :
    Direct root (name :: done) where
  plain := List.forall_mem_cons.2 ⟨⟨hplain, hfree⟩, h.plain⟩
  noLink := by
    intro tail htail
    rcases List.suffix_cons_iff.1 htail with rfl | htail
    · exact hlink
    · exact h.noLink tail htail

theorem of_suffix (h : Direct root done) {tail : List String} (htail : tail <:+ done) :
    Direct root tail where
  plain := fun name hname => h.plain name (htail.subset hname)
  noLink := fun tail' htail' => h.noLink tail' (htail'.trans htail)

end Direct

/-- **Replacing links leaves a path without links.** -/
theorem direct_of_realNames (hnames : ∀ name ∈ names, '/' ∉ name.toList) (hdone : Direct root done)
    (h : realNames root depth opened done names = .ok result) : Direct root result := by
  fun_induction realNames root depth opened done names generalizing result with
  | case1 depth opened done =>
      cases h
      exact hdone
  | case2 depth opened done name rest hskip ih =>
      exact ih (List.forall_mem_cons.1 hnames).2 hdone h
  | case3 depth opened done rest hskip ih =>
      exact ih (List.forall_mem_cons.1 hnames).2 (hdone.of_suffix (List.drop_suffix 1 done)) h
  -- A link that leads back to itself is not replaced.
  | case4 => cases h
  | case5 => cases h
  | case6 => cases h
  | case7 opened done name rest hskip hdots target hlink depth hnew inner hinner ihinner ih =>
      refine ih (List.forall_mem_cons.1 hnames).2 (ihinner ?_ ?_ hinner) h
      · exact fun piece hpiece => Text.not_mem_of_mem_pieces hpiece
      · split
        · exact .nil root
        · exact hdone
  | case8 depth opened done name rest hskip hdots hlink ih =>
      obtain ⟨hfree, hrest⟩ := List.forall_mem_cons.1 hnames
      rw [not_or] at hskip
      exact ih hrest (hdone.cons ⟨hskip.1, hskip.2, hdots⟩ hfree hlink) h

/-- **Where there are no links, nothing is replaced.** -/
theorem realNames_of_direct (depth : Nat) (h : Direct root (names.reverse ++ done)) :
    realNames root depth opened done names = .ok (names.reverse ++ done) := by
  induction names generalizing done with
  | nil => rw [realNames, List.reverse_nil, List.nil_append]
  | cons name names ih =>
      rw [List.reverse_cons, List.append_assoc, List.singleton_append] at h ⊢
      obtain ⟨hplain, -⟩ := h.plain name (by simp)
      have hskip : ¬ (name = "" ∨ name = ".") := not_or.2 ⟨hplain.ne_empty, hplain.ne_dot⟩
      have hlink := h.noLink (name :: done) (List.suffix_append _ _)
      rw [realNames, if_neg hskip, if_neg hplain.ne_dots]
      split
      next target htarget => exact absurd htarget (hlink target)
      next => exact ih h

/-- The pieces of an absolute path: an empty one for the root, then its names. -/
theorem pieces_text (hfree : ∀ name ∈ names, '/' ∉ name.toList) :
    pieces (Path.text ⟨true, names⟩) = "" :: if names = [] then [""] else names := by
  have htext : (Path.text ⟨true, names⟩).toList =
      "".toList ++ '/' :: ("/".intercalate names).toList := by
    rw [Path.text, if_pos rfl, String.toList_append]
    rfl
  rw [pieces, Text.pieces_append_cons (by simp) htext]
  split
  next hnil =>
      rw [hnil]
      rfl
  next hne => rw [Text.pieces_intercalate rfl hne hfree]

/-- **A real path is its own real path.** -/
theorem realPath_of_realPath {d : Disk} {path real : String} (h : d.realPath path = .ok real) :
    d.realPath real = .ok real := by
  rw [realPath] at h
  split at h
  next done hdone =>
      dsimp only at h
      split at h
      · cases h
      next hnull =>
      cases h
      have hnull : hasNull (Path.text ⟨true, done.reverse⟩) = false := by simp_all
      have hdirect : Direct d.root done :=
        direct_of_realNames (fun piece hpiece => Text.not_mem_of_mem_pieces hpiece) (.nil _) hdone
      have hfree : ∀ name ∈ done.reverse, '/' ∉ name.toList :=
        fun name hname => (hdirect.plain name (List.mem_reverse.1 hname)).2
      have habsolute : isAbsolute (Path.text ⟨true, done.reverse⟩) = true := by
        rw [isAbsolute, Path.text, if_pos rfl, String.toList_append]
        rfl
      have hsame : realNames d.root (linkCountIn d.root + 1) [] []
          (pieces (Path.text ⟨true, done.reverse⟩)) = .ok done := by
        rw [pieces_text hfree, realNames, if_pos (.inl rfl)]
        split
        next hnil =>
            rw [realNames, if_pos (.inl rfl), realNames, List.reverse_eq_nil_iff.1 hnil]
        next =>
            rw [realNames_of_direct _ (by simpa using hdirect)]
            simp
      rw [realPath, absolute, if_pos habsolute, hsame]
      dsimp only
      rw [hnull, Bool.or_self, if_neg Bool.false_ne_true]
  next =>
      dsimp only at h
      split at h
      · cases h
      · split at h <;> cases h

end Winnow.Files.Disk
