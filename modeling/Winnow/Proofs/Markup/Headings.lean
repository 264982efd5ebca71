import Mathlib.Data.List.TakeWhile
import Winnow.Proofs.Text.Splitting
import Winnow.Markup.Heading

/-!
# Headings and fenced code

Headings are found by going through the lines of a text with the code fence that is open. What a
run of lines does is told by the headings in it and the fence that it leaves open (`openAfter`), so
a text that ends in a whole line and leaves none open can be read apart from what follows it
(`headingsIn_append`). The lines of a block of code (`CodeBlock`) have no headings and leave none
open: shorter runs, runs of the other character and lines that look like headings are passed over
until the fence is closed.
-/

namespace Winnow.Markup

/-! ## Lines that begin with a run -/

/-- A line that begins, behind up to three spaces, with at least `n` times the same character. -/
def BeginsWithRun (mark : Char) (n : Nat) (line : List Char) : Prop :=
  ∃ margin ≤ 3, ∃ rest, line = List.replicate margin ' ' ++ (List.replicate n mark ++ rest)

/-- The lines of a block of code: a run of three or more backticks or tildes with any text behind
it, lines that do not begin with such a run of at least this length, and a line that does. -/
inductive CodeBlock : List (List Char) → Prop
  | mk {mark : Char} {n margin : Nat} {info closing : List Char} {inner : List (List Char)}
      (hmark : mark = '\x60' ∨ mark = '~') (hlong : 3 ≤ n) (hmargin : margin ≤ 3)
      (hinfo : info.head? ≠ some mark) (hinner : ∀ line ∈ inner, ¬ BeginsWithRun mark n line)
      (hclosing : BeginsWithRun mark n closing) :
      CodeBlock ((List.replicate margin ' ' ++ (List.replicate n mark ++ info)) ::
        (inner ++ [closing]))

theorem takeWhile_replicate_append {c : Char} {n : Nat} {rest : List Char}
    (h : rest.head? ≠ some c) : (List.replicate n c ++ rest).takeWhile (· == c) =
      List.replicate n c := by
  rw [List.takeWhile_append_of_pos (by simp +contextual)]
  rcases rest with _ | ⟨d, rest⟩
  · simp
  · have hd : d ≠ c := fun he => h (congrArg some he)
    simp [hd]

/-- A text is a run of a character, as long as it goes, and the rest. -/
theorem exists_run (c : Char) (s : List Char) :
    ∃ rest, s = List.replicate (s.takeWhile (· == c)).length c ++ rest ∧ rest.head? ≠ some c := by
  have hrun : s.takeWhile (· == c) = List.replicate (s.takeWhile (· == c)).length c :=
    List.eq_replicate_of_mem fun d hd => by simpa using List.mem_takeWhile_imp hd
  refine ⟨s.dropWhile (· == c), ?_, fun hhead => ?_⟩
  · rw [← hrun, List.takeWhile_append_dropWhile]
  · have hnot := List.head?_dropWhile_not (· == c) s
    rw [hhead] at hnot
    simp at hnot

theorem dropMargin_replicate {margin : Nat} (h : margin ≤ 3) {rest : List Char}
    (hrest : rest.head? ≠ some ' ') : dropMargin (List.replicate margin ' ' ++ rest) = rest := by
  rw [dropMargin, takeWhile_replicate_append hrest, List.length_replicate, Nat.min_eq_right h,
    List.drop_left' List.length_replicate]

theorem exists_margin (line : List Char) :
    ∃ margin ≤ 3, line = List.replicate margin ' ' ++ dropMargin line := by
  obtain ⟨rest, hline, -⟩ := exists_run ' ' line
  refine ⟨min 3 (line.takeWhile (· == ' ')).length, Nat.min_le_left _ _, ?_⟩
  have hspaces : line.take (min 3 (line.takeWhile (· == ' ')).length) =
      List.replicate (min 3 (line.takeWhile (· == ' ')).length) ' ' := by
    generalize (line.takeWhile (· == ' ')).length = n at hline
    rw [hline, List.take_append_of_le_length (by simp), List.take_replicate,
      Nat.min_eq_left (Nat.min_le_right 3 n)]
  rw [dropMargin, ← hspaces, List.take_append_drop]

namespace CodeFence

/-- A run that is long enough is a fence, of the length that it has. -/
theorem ofLine?_run {mark : Char} (hmark : mark = '\x60' ∨ mark = '~') {n margin : Nat}
    (hlong : 3 ≤ n) (hmargin : margin ≤ 3) {rest : List Char} (hrest : rest.head? ≠ some mark) :
    ofLine? (List.replicate margin ' ' ++ (List.replicate n mark ++ rest)) = some ⟨mark, n⟩ := by
  obtain ⟨n, rfl⟩ := Nat.exists_eq_add_of_le' (Nat.one_le_of_lt hlong)
  have hspace : mark ≠ ' ' := by rcases hmark with rfl | rfl <;> decide
  rw [ofLine?, dropMargin_replicate hmargin (by simpa [List.replicate_succ] using hspace),
    List.replicate_succ, List.cons_append]
  dsimp only
  rw [takeWhile_replicate_append hrest, List.length_replicate]
  simp [hmark, hlong]

theorem beginsWithRun_of_ofLine? {line : List Char} {f : CodeFence} (h : ofLine? line = some f) :
    BeginsWithRun f.mark f.length line := by
  obtain ⟨margin, hmargin, hline⟩ := exists_margin line
  rw [ofLine?] at h
  split at h
  next => cases h
  next c rest hrest =>
    obtain ⟨after, hrun, -⟩ := exists_run c rest
    dsimp only at h
    split at h
    next =>
      cases h
      refine ⟨margin, hmargin, after, ?_⟩
      rw [hline, hrest, List.replicate_succ, List.cons_append, ← hrun]
    next => cases h

/-- The lines that begin with a long run are those that close a fence of this length. -/
theorem beginsWithRun_iff {mark : Char} (hmark : mark = '\x60' ∨ mark = '~') {n : Nat}
    (hlong : 3 ≤ n) {line : List Char} :
    BeginsWithRun mark n line ↔ ∃ f, ofLine? line = some f ∧ f.closes ⟨mark, n⟩ = true := by
  constructor
  · rintro ⟨margin, hmargin, rest, rfl⟩
    obtain ⟨after, hrest, hafter⟩ := exists_run mark rest
    refine ⟨⟨mark, n + (rest.takeWhile (· == mark)).length⟩, ?_, by simp [closes]⟩
    rw [hrest, ← List.append_assoc (List.replicate n mark), List.replicate_append_replicate, ← hrest]
    exact ofLine?_run hmark (by omega) hmargin hafter
  · rintro ⟨f, hf, hcloses⟩
    obtain ⟨margin, hmargin, rest, hline⟩ := beginsWithRun_of_ofLine? hf
    have hcloses : f.mark = mark ∧ n ≤ f.length := by simpa [closes] using hcloses
    obtain ⟨rfl, hle⟩ := hcloses
    obtain ⟨k, hk⟩ := Nat.exists_eq_add_of_le hle
    refine ⟨margin, hmargin, List.replicate k f.mark ++ rest, ?_⟩
    rw [hline, hk, ← List.replicate_append_replicate, List.append_assoc]

/-! ## The fence that is open -/

/-- The fence that is open behind a line. -/
def next (opener : Option CodeFence) (line : List Char) : Option CodeFence :=
  match ofLine? line with
  | none => opener
  | some f =>
    match opener with
    | none => some f
    | some o => if f.closes o then none else some o

end CodeFence

/-- The fence that lines leave open. -/
def openAfter (opener : Option CodeFence) (lines : List (List Char)) : Option CodeFence :=
  lines.foldl CodeFence.next opener

theorem openAfter_cons (opener : Option CodeFence) (line : List Char) (ls : List (List Char)) :
    openAfter opener (line :: ls) = openAfter (CodeFence.next opener line) ls := rfl

theorem openAfter_append (opener : Option CodeFence) (ls ms : List (List Char)) :
    openAfter opener (ls ++ ms) = openAfter (openAfter opener ls) ms :=
  List.foldl_append

/-- The heading that a line is where no fence is open. -/
def headingAt (opener : Option CodeFence) (line : List Char) : List Heading :=
  match CodeFence.ofLine? line with
  | some _ => []
  | none => if opener.isSome then [] else (Heading.ofLine? line).toList

theorem headingsIn_cons (opener : Option CodeFence) (line : List Char) (ls : List (List Char)) :
    headingsIn opener (line :: ls) =
      headingAt opener line ++ headingsIn (CodeFence.next opener line) ls := by
  rw [headingsIn.eq_def, headingAt, CodeFence.next]
  dsimp only
  cases CodeFence.ofLine? line with
  | some f => cases opener <;> rfl
  | none =>
      cases opener with
      | some o => rfl
      | none =>
          dsimp only
          cases Heading.ofLine? line <;> rfl

/-- A run of lines is read apart from the lines behind it, but for the fence that it leaves open. -/
theorem headingsIn_append (opener : Option CodeFence) (ls ms : List (List Char)) :
    headingsIn opener (ls ++ ms) = headingsIn opener ls ++ headingsIn (openAfter opener ls) ms := by
  induction ls generalizing opener with
  | nil => rfl
  | cons line ls ih =>
      rw [List.cons_append, headingsIn_cons, headingsIn_cons, ih, List.append_assoc]
      rfl

/-- A line that does not close the open fence is passed over. -/
theorem passes_of_not_beginsWithRun {mark : Char} (hmark : mark = '\x60' ∨ mark = '~') {n : Nat}
    (hlong : 3 ≤ n) {line : List Char} (h : ¬ BeginsWithRun mark n line) :
    headingAt (some ⟨mark, n⟩) line = [] ∧
      CodeFence.next (some ⟨mark, n⟩) line = some ⟨mark, n⟩ := by
  have hline := mt (CodeFence.beginsWithRun_iff hmark hlong).2 h
  rw [headingAt, CodeFence.next]
  cases hfence : CodeFence.ofLine? line with
  | none => exact ⟨rfl, rfl⟩
  | some f => exact ⟨rfl, if_neg fun hcloses => hline ⟨f, hfence, hcloses⟩⟩

/-- Inside a block of code there are no headings, and the fence stays open. -/
theorem passes_inner {mark : Char} (hmark : mark = '\x60' ∨ mark = '~') {n : Nat} (hlong : 3 ≤ n)
    {inner : List (List Char)} (h : ∀ line ∈ inner, ¬ BeginsWithRun mark n line) :
    headingsIn (some ⟨mark, n⟩) inner = [] ∧
      openAfter (some ⟨mark, n⟩) inner = some ⟨mark, n⟩ := by
  induction inner with
  | nil => exact ⟨rfl, rfl⟩
  | cons line inner ih =>
      obtain ⟨hnone, hopen⟩ := passes_of_not_beginsWithRun hmark hlong (h line List.mem_cons_self)
      rw [headingsIn_cons, openAfter_cons, hnone, hopen]
      exact ih fun other hother => h other (List.mem_cons_of_mem _ hother)

/-- A block of code has no headings and leaves no fence open. -/
theorem CodeBlock.passes {ls : List (List Char)} (h : CodeBlock ls) :
    headingsIn none ls = [] ∧ openAfter none ls = none := by
  cases h with
  | @mk mark n margin info closing inner hmark hlong hmargin hinfo hinner hclosing =>
      have hopening := CodeFence.ofLine?_run hmark hlong hmargin hinfo
      obtain ⟨f, hf, hcloses⟩ := (CodeFence.beginsWithRun_iff hmark hlong).1 hclosing
      obtain ⟨hnone, hopen⟩ := passes_inner hmark hlong hinner
      constructor
      · rw [headingsIn_cons, headingsIn_append, headingsIn_cons, headingAt, headingAt,
          CodeFence.next, hopening, hf]
        dsimp only
        rw [hnone]
        rfl
      · rw [openAfter_cons, openAfter_append, openAfter_cons, CodeFence.next, CodeFence.next,
          hopening, hf]
        dsimp only
        rw [hopen]
        exact if_pos hcloses

/-- **Fenced code is invisible to headings.** -/
theorem headings_append_codeBlock {a block b : List Char} {ls : List (List Char)}
    (ha : a = [] ∨ a.getLast? = some '\n') (hopen : openAfter none (Text.lines a) = none)
    (hlines : Text.EndedLines ls block) (hblock : CodeBlock ls) :
    headings (a ++ block ++ b) = headings (a ++ b) ∧
      headings (a ++ b) = headings a ++ headings b := by
  have hwithout : headings (a ++ b) = headings a ++ headings b := by
    rw [headings, Text.lines_append ha, headingsIn_append, hopen]
    rfl
  refine ⟨?_, hwithout⟩
  obtain ⟨hnone, hclosed⟩ := hblock.passes
  rw [hwithout, headings, List.append_assoc, Text.lines_append ha,
    Text.lines_append hlines.getLast?, Text.lines_of_endedLines hlines, headingsIn_append,
    headingsIn_append, hopen, hnone, hclosed]
  rfl

/-- Tildes, in which a line like a heading and a run of the other character are passed over. -/
theorem headings_append_codeBlock_tildes :
    let block := "~~~ x\r\n# no\n```\n ~~~~\n".toList
    let ls := ["~~~ x", "# no", "```", " ~~~~"].map String.toList
    (openAfter none (Text.lines "# a\n".toList) = none ∧ Text.EndedLines ls block ∧ CodeBlock ls) ∧
      headings ("# a\n".toList ++ block ++ "# b".toList) = headings "# a\n# b".toList ∧
      headings "# a\n# b".toList = headings "# a\n".toList ++ headings "# b".toList := by
  intro block ls
  have hopen : openAfter none (Text.lines "# a\n".toList) = none := by decide
  have hplain : ∀ line ∈ ls, ∀ c ∈ line, Text.isLineBoundary c = false := by
    have hall : (ls.all fun line => line.all fun c => !Text.isLineBoundary c) = true := by decide
    simpa using hall
  have hlines : Text.EndedLines ls block :=
    .cons (hplain _ (by simp [ls])) (.inr rfl) (.cons (hplain _ (by simp [ls])) (.inl rfl)
      (.cons (hplain _ (by simp [ls])) (.inl rfl) (.cons (hplain _ (by simp [ls])) (.inl rfl) .nil)))
  have hinner : ∀ line ∈ ["# no", "```"].map String.toList, ¬ BeginsWithRun '~' 3 line := by
    intro line hline hrun
    have hpassed : ∀ line ∈ ["# no", "```"].map String.toList,
        (CodeFence.ofLine? line).any (·.closes ⟨'~', 3⟩) = false := by decide
    obtain ⟨f, hf, hcloses⟩ := (CodeFence.beginsWithRun_iff (.inr rfl) (by decide)).1 hrun
    simpa [hf, hcloses] using hpassed line hline
  have hblock : CodeBlock ls :=
    @CodeBlock.mk '~' 3 0 " x".toList " ~~~~".toList _ (.inr rfl) (by decide) (by decide)
      (by decide) hinner ⟨1, by decide, ['~'], rfl⟩
  exact ⟨⟨hopen, hlines, hblock⟩, headings_append_codeBlock (.inr rfl) hopen hlines hblock⟩

end Winnow.Markup
