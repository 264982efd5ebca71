import Winnow.Proofs.Markup.Windows

/-!
# The grammar of fences

What a block is can be said without looking for it: a fence line that a line feed ends, complete
lines that are no fences, a fence line that a line feed or the end of the item ends, and the body.
The scan of a whole item finds just this division, and an item has no block, or one that does not
close, exactly if it cannot be divided so (`scan_eq_iff_divided`).
-/

namespace Winnow.Markup

open Fence

/-! ## Fence lines -/

/-- The lines that are fences, without what ends them: three hyphens, spaces or tabs, and perhaps a
carriage return. -/
def IsFenceLine (l : Bytes) : Prop :=
  ∃ blanks ending, l = [0x2D, 0x2D, 0x2D] ++ blanks ++ ending ∧
    (∀ b ∈ blanks, b = 0x20 ∨ b = 0x09) ∧ (ending = [] ∨ ending = [0x0D])

/-- A run of complete lines, none of which is a fence. -/
inductive PlainLines : Bytes → Prop
  | nil : PlainLines []
  | line {l rest : Bytes} (hl : lineFeed ∉ l) (hplain : ¬ IsFenceLine l) (hrest : PlainLines rest) :
      PlainLines (l ++ lineFeed :: rest)

namespace Fence

theorem isBlank_iff {b : UInt8} : isBlank b = true ↔ b = 0x20 ∨ b = 0x09 := by
  simp [isBlank]

/-- The blanks of a fence end at its carriage return. -/
theorem isTail_iff {bs : Bytes} : isTail bs = true ↔ ∃ blanks ending, bs = blanks ++ ending ∧
    (∀ b ∈ blanks, b = 0x20 ∨ b = 0x09) ∧ (ending = [] ∨ ending = [0x0D]) := by
  constructor
  · intro h
    refine ⟨bs.takeWhile isBlank, bs.dropWhile isBlank, List.takeWhile_append_dropWhile.symm,
      fun b hb => isBlank_iff.1 (List.mem_takeWhile_imp hb), ?_⟩
    simpa [isTail, carriageReturn] using h
  · rintro ⟨blanks, ending, rfl, hblanks, hending⟩
    have hdrop : (blanks ++ ending).dropWhile isBlank = ending.dropWhile isBlank :=
      List.dropWhile_append_of_pos fun b hb => isBlank_iff.2 (hblanks b hb)
    rw [isTail, hdrop]
    rcases hending with rfl | rfl <;> decide

theorem isFence_iff {l : Bytes} : isFence l = true ↔ IsFenceLine l := by
  rw [isFence, Bool.and_eq_true, beq_iff_eq, isTail_iff]
  constructor
  · rintro ⟨hdashes, blanks, ending, hrest, hblanks, hending⟩
    refine ⟨blanks, ending, ?_, hblanks, hending⟩
    rw [List.append_assoc, ← hrest, ← List.take_append_drop 3 l, hdashes]
    rfl
  · rintro ⟨blanks, ending, rfl, hblanks, hending⟩
    exact ⟨rfl, blanks, ending, rfl, hblanks, hending⟩

end Fence

theorem IsFenceLine.not_mem {l : Bytes} (h : IsFenceLine l) : lineFeed ∉ l := by
  obtain ⟨blanks, ending, rfl, hblanks, hending⟩ := h
  intro hmem
  simp only [List.mem_append] at hmem
  rcases hmem with (hmem | hmem) | hmem
  · revert hmem
    decide
  · rcases hblanks _ hmem with hb | hb <;> revert hb <;> decide
  · rcases hending with rfl | rfl <;> revert hmem <;> decide

theorem IsFenceLine.ne_nil {l : Bytes} (h : IsFenceLine l) : l ≠ [] := by
  obtain ⟨blanks, ending, rfl, -, -⟩ := h
  simp

/-! ## Looking for a fence -/

namespace Fence

variable {l inner rest : Bytes}

theorem find?_of_ne_nil {bs : Bytes} (h : bs ≠ []) (position : Nat) :
    find? position bs =
      if isFence (line bs) then some (position, position + (line bs).length)
      else find? (position + (line bs).length + 1) (afterLine bs) := by
  rw [find?, dif_neg h]

theorem find?_nil (position : Nat) : find? position [] = none := by
  rw [find?, dif_pos rfl]

/-- Lines that are no fences are passed over. -/
theorem find?_append_of_plainLines (h : PlainLines inner) (position : Nat) (rest : Bytes) :
    find? position (inner ++ rest) = find? (position + inner.length) rest := by
  induction h generalizing position with
  | nil => rfl
  | @line l inner hl hplain _ ih =>
      have hassoc : l ++ lineFeed :: inner ++ rest = l ++ lineFeed :: (inner ++ rest) := by simp
      rw [hassoc, find?_of_ne_nil (by simp), line_of_split hl, if_neg (mt isFence_iff.1 hplain),
        afterLine_of_split hl, ih]
      congr 1
      simp only [List.length_append, List.length_cons]
      omega

theorem line_of_isFenceLine (h : IsFenceLine l)
    (hrest : rest = [] ∨ ∃ body, rest = lineFeed :: body) : line (l ++ rest) = l := by
  rcases hrest with rfl | ⟨body, rfl⟩
  · rw [List.append_nil]
    exact line_eq_self h.not_mem
  · exact line_of_split h.not_mem

/-- A fence is found where it stands, whether a line feed ends it or the item does. -/
theorem find?_of_isFenceLine (h : IsFenceLine l) (position : Nat)
    (hrest : rest = [] ∨ ∃ body, rest = lineFeed :: body) :
    find? position (l ++ rest) = some (position, position + l.length) := by
  rw [find?_of_ne_nil (by simp [h.ne_nil]), line_of_isFenceLine h hrest,
    if_pos (isFence_iff.2 h)]

/-- A last line that is no fence leaves nothing to be found. -/
theorem find?_of_not_isFenceLine (hl : lineFeed ∉ l) (hplain : ¬ IsFenceLine l) (position : Nat) :
    find? position l = none := by
  by_cases hnil : l = []
  · rw [hnil, find?_nil]
  · rw [find?_of_ne_nil hnil, line_eq_self hl, if_neg (mt isFence_iff.1 hplain),
      afterLine_eq_nil hl, find?_nil]

/-- **Every text is read line by line up to its first fence**, or to its end if there is none. -/
theorem exists_plainLines (bs : Bytes) : ∃ inner rest, bs = inner ++ rest ∧ PlainLines inner ∧
    ((lineFeed ∉ rest ∧ ¬ IsFenceLine rest) ∨
      ∃ l ending, rest = l ++ ending ∧ IsFenceLine l ∧
        (ending = [] ∨ ∃ body, ending = lineFeed :: body)) := by
  by_cases hlf : lineFeed ∈ bs
  · obtain ⟨l, later, rfl, hl⟩ := List.eq_append_cons_of_mem hlf
    by_cases hfence : IsFenceLine l
    · exact ⟨[], _, rfl, .nil, .inr ⟨l, _, rfl, hfence, .inr ⟨later, rfl⟩⟩⟩
    · obtain ⟨inner, rest, rfl, hinner, hrest⟩ := exists_plainLines later
      exact ⟨l ++ lineFeed :: inner, rest, by simp, .line hl hfence hinner, hrest⟩
  · by_cases hfence : IsFenceLine bs
    · exact ⟨[], bs, rfl, .nil, .inr ⟨bs, [], by simp, hfence, .inl rfl⟩⟩
    · exact ⟨[], bs, rfl, .nil, .inl ⟨hlf, hfence⟩⟩
termination_by bs.length
decreasing_by
  simp_all
  omega

/-- A fence that is found ends where its line does. -/
theorem find?_ends {bs : Bytes} {position stop last : Nat}
    (h : find? position bs = some (stop, last)) :
    position ≤ last ∧ (last = position + bs.length ∨ bs[last - position]? = some lineFeed) := by
  obtain ⟨inner, rest, rfl, hinner, hrest⟩ := exists_plainLines bs
  rw [find?_append_of_plainLines hinner] at h
  rcases hrest with ⟨hlf, hlast⟩ | ⟨l, ending, rfl, hl, hending⟩
  · rw [find?_of_not_isFenceLine hlf hlast] at h
    cases h
  · rw [find?_of_isFenceLine hl _ hending] at h
    cases h
    refine ⟨by omega, ?_⟩
    rcases hending with rfl | ⟨body, rfl⟩
    · left
      simp only [List.length_append, List.length_nil]
      omega
    · right
      have hindex : position + inner.length + l.length - position - (inner ++ l).length = 0 := by
        rw [List.length_append]
        omega
      have hbehind : (inner ++ l).length ≤ position + inner.length + l.length - position := by
        rw [List.length_append]
        omega
      rw [← List.append_assoc, List.getElem?_append_right hbehind, hindex]
      rfl

end Fence

/-! ## Divisions of an item -/

/-- What the grammar says of an item. -/
inductive Divided : Bytes → Block → Prop
  | absent {d : Bytes} (h : ¬ ∃ l rest, IsFenceLine l ∧ d = l ++ lineFeed :: rest) :
      Divided d .absent
  | pending {l inner last : Bytes} (hl : IsFenceLine l) (hinner : PlainLines inner)
      (hlf : lineFeed ∉ last) (hlast : ¬ IsFenceLine last) :
      Divided (l ++ lineFeed :: (inner ++ last)) .pending
  | closed {l inner l' ending rest : Bytes} (hl : IsFenceLine l) (hinner : PlainLines inner)
      (hl' : IsFenceLine l') (hending : ending = [lineFeed] ∨ ending = [] ∧ rest = []) :
      Divided (l ++ lineFeed :: (inner ++ (l' ++ (ending ++ rest))))
        (.closed (l.length + 1) (l.length + 1 + inner.length)
          (l.length + 1 + inner.length + (l' ++ ending).length))

namespace Block

/-- Behind an opening fence the scan goes on with the lines that follow. -/
theorem scan_of_opening {l : Bytes} (hl : IsFenceLine l) (rest : Bytes) (isWhole : Bool) :
    scan (l ++ lineFeed :: rest) isWhole =
      match find? (l.length + 1) rest with
      | none => .pending
      | some (stop, last) =>
        if last = (l ++ lineFeed :: rest).length then
          if isWhole then .closed (l.length + 1) stop last else .pending
        else .closed (l.length + 1) stop (last + 1) := by
  have hline : line (l ++ lineFeed :: rest) = l := line_of_split hl.not_mem
  have hfence : isFence (line (l ++ lineFeed :: rest)) = true := by
    rw [hline]
    exact isFence_iff.2 hl
  have hscan := @scan_of_isFence _ isWhole (by simp) hfence
  rw [hline, afterLine_of_split hl.not_mem] at hscan
  exact hscan

/-- An item that does not open with a fence line has no block. -/
theorem scan_of_no_opening {d : Bytes}
    (h : ¬ ∃ l rest, IsFenceLine l ∧ d = l ++ lineFeed :: rest) : scan d true = .absent := by
  by_cases hlf : lineFeed ∈ d
  · obtain ⟨l, rest, rfl, hl⟩ := List.eq_append_cons_of_mem hlf
    refine scan_of_not_isFence hlf ?_
    rw [line_of_split hl, isFence_iff]
    exact fun hfence => h ⟨l, rest, hfence, rfl⟩
  · by_cases hopen : mayOpen d = true
    · simp [scan, hopen, hlf]
    · exact scan_of_not_mayOpen hopen

/-- **The scan finds the division that there is.** -/
theorem scan_of_divided {d : Bytes} {b : Block} (h : Divided d b) : scan d true = b := by
  cases h with
  | absent hnone => exact scan_of_no_opening hnone
  | @pending l inner last hl hinner hlf hlast =>
      rw [scan_of_opening hl, find?_append_of_plainLines hinner,
        find?_of_not_isFenceLine hlf hlast]
  | @closed l inner l' ending rest hl hinner hl' hending =>
      have hends : ending ++ rest = [] ∨ ∃ body, ending ++ rest = lineFeed :: body := by
        rcases hending with rfl | ⟨rfl, rfl⟩
        · exact .inr ⟨rest, rfl⟩
        · exact .inl rfl
      rw [scan_of_opening hl, find?_append_of_plainLines hinner, find?_of_isFenceLine hl' _ hends]
      rcases hending with rfl | ⟨rfl, rfl⟩
      · have hlonger : l.length + 1 + inner.length + l'.length ≠
            (l ++ lineFeed :: (inner ++ (l' ++ ([lineFeed] ++ rest)))).length := by
          simp only [List.length_append, List.length_cons]
          omega
        simp only [hlonger, if_false]
        simp [Nat.add_assoc]
      · have hend : l.length + 1 + inner.length + l'.length =
            (l ++ lineFeed :: (inner ++ (l' ++ ([] ++ [])))).length := by
          simp only [List.length_append, List.length_cons, List.length_nil]
          omega
        simp only [hend, if_true]
        simp
        omega

end Block

/-- **Every item is divided in one way or the other.** -/
theorem exists_divided (d : Bytes) : ∃ b, Divided d b := by
  by_cases hopen : ∃ l rest, IsFenceLine l ∧ d = l ++ lineFeed :: rest
  · obtain ⟨l, rest, hl, rfl⟩ := hopen
    obtain ⟨inner, later, rfl, hinner, hlater⟩ := exists_plainLines rest
    rcases hlater with ⟨hlf, hlast⟩ | ⟨l', ending, rfl, hl', hending⟩
    · exact ⟨_, .pending hl hinner hlf hlast⟩
    · rcases hending with rfl | ⟨body, rfl⟩
      · exact ⟨_, @Divided.closed l inner l' [] [] hl hinner hl' (.inr ⟨rfl, rfl⟩)⟩
      · exact ⟨_, @Divided.closed l inner l' [lineFeed] body hl hinner hl' (.inl rfl)⟩
  · exact ⟨_, .absent hopen⟩

theorem scan_eq_iff_divided {d : Bytes} {b : Block} : Block.scan d true = b ↔ Divided d b := by
  constructor
  · rintro rfl
    obtain ⟨b, hb⟩ := exists_divided d
    rw [Block.scan_of_divided hb]
    exact hb
  · exact Block.scan_of_divided

/-! ## The three answers -/

theorem divided_absent_iff {d : Bytes} :
    Divided d .absent ↔ ¬ ∃ l rest, IsFenceLine l ∧ d = l ++ lineFeed :: rest := by
  constructor
  · intro h
    cases h with
    | absent hnone => exact hnone
  · exact .absent

theorem divided_pending_iff {d : Bytes} :
    Divided d .pending ↔ ∃ l inner last, IsFenceLine l ∧ PlainLines inner ∧ lineFeed ∉ last ∧
      ¬ IsFenceLine last ∧ d = (l ++ [lineFeed]) ++ inner ++ last := by
  constructor
  · intro h
    cases h with
    | pending hl hinner hlf hlast => exact ⟨_, _, _, hl, hinner, hlf, hlast, by simp⟩
  · rintro ⟨l, inner, last, hl, hinner, hlf, hlast, rfl⟩
    simpa using Divided.pending hl hinner hlf hlast

theorem divided_closed_iff {d : Bytes} {start stop body : Nat} :
    Divided d (.closed start stop body) ↔ ∃ l inner l' ending rest, IsFenceLine l ∧
      PlainLines inner ∧ IsFenceLine l' ∧ (ending = [lineFeed] ∨ ending = [] ∧ rest = []) ∧
      d = (l ++ [lineFeed]) ++ inner ++ (l' ++ ending) ++ rest ∧
      start = (l ++ [lineFeed]).length ∧ stop = start + inner.length ∧
      body = stop + (l' ++ ending).length := by
  constructor
  · intro h
    cases h with
    | closed hl hinner hl' hending =>
        exact ⟨_, _, _, _, _, hl, hinner, hl', hending, by simp, by simp, rfl, rfl⟩
  · rintro ⟨l, inner, l', ending, rest, hl, hinner, hl', hending, rfl, rfl, rfl, rfl⟩
    simpa using Divided.closed hl hinner hl' hending

end Winnow.Markup
