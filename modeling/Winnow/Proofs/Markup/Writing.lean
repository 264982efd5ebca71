import Winnow.Proofs.Markup.Headings

/-!
# Headings as they are written

A heading is written on a line: up to three spaces, as many hash marks as it is deep, its text
behind a space, and, if one likes, a closing run of hash marks behind another space and blanks at
the end (`HeadingLine`). Texts that end in hash marks behind a blank are left out, since these would
close the heading. What is read from such lines are the headings that were written, in order
(`headings_written`), with one exception: where there is no text, a closing run has nothing to stand
behind, and it is read as the text (`closing_run_read_as_text`).
-/

namespace Winnow.Markup

/-! ## Runs at the ends of a text -/

section Runs

variable {p : Char → Bool} {a b : List Char}

theorem dropWhile_append_exact (ha : ∀ c ∈ a, p c = true)
    (hb : ∀ c, b.head? = some c → p c = false) : (a ++ b).dropWhile p = b := by
  rw [List.dropWhile_append_of_pos ha]
  cases b with
  | nil => rfl
  | cons c b => rw [List.dropWhile_cons_of_neg (by simp [hb c rfl])]

/-- A run at the end goes, and what ends in no such character stays. -/
theorem dropEnd_append_exact (ha : ∀ c, a.getLast? = some c → p c = false)
    (hb : ∀ c ∈ b, p c = true) : ((a ++ b).reverse.dropWhile p).reverse = a := by
  rw [List.reverse_append, dropWhile_append_exact (by simpa using hb) (by simpa using ha),
    List.reverse_reverse]

/-- A text is what is left without a run at its end, and the run. -/
theorem exists_runAtEnd (mark : Char) (a : List Char) :
    ∃ n, a = (a.reverse.dropWhile (· == mark)).reverse ++ List.replicate n mark := by
  refine ⟨(a.reverse.takeWhile (· == mark)).length, ?_⟩
  have hrun : a.reverse.takeWhile (· == mark) =
      List.replicate (a.reverse.takeWhile (· == mark)).length mark :=
    List.eq_replicate_of_mem fun c hc => by simpa using List.mem_takeWhile_imp hc
  rw [← List.reverse_replicate, ← hrun, ← List.reverse_append, List.takeWhile_append_dropWhile,
    List.reverse_reverse]

end Runs

theorem isBlankChar_iff {c : Char} : isBlankChar c = true ↔ c = ' ' ∨ c = '\t' := by
  simp [isBlankChar]

theorem isBlankChar_of_not_isSpace {c : Char} (h : Text.isSpace c = false) :
    isBlankChar c = false := by
  by_contra hblank
  rcases isBlankChar_iff.1 (by simpa using hblank) with rfl | rfl
  · exact absurd h (by decide)
  · exact absurd h (by decide)

/-! ## Lines -/

/-- A text that ends in hash marks behind a blank, which would close a heading. -/
def EndsClosed (text : List Char) : Prop :=
  ∃ before blank n, isBlankChar blank = true ∧ 0 < n ∧
    text = before ++ blank :: List.replicate n '#'

/-- Whether a text would close a heading is seen before its last hash marks. -/
theorem endsClosed_iff {text : List Char} : EndsClosed text ↔ text.getLast? = some '#' ∧
    (text.reverse.dropWhile (· == '#')).head?.any isBlankChar = true := by
  constructor
  · rintro ⟨before, blank, n, hblank, hn, rfl⟩
    obtain ⟨n, rfl⟩ := Nat.exists_eq_add_one.2 hn
    have hmark : (blank == '#') = false := by
      rcases isBlankChar_iff.1 hblank with rfl | rfl
      · rfl
      · rfl
    have hsplit : before ++ blank :: List.replicate (n + 1) '#' =
        (before ++ [blank]) ++ List.replicate (n + 1) '#' := by simp
    have hend := dropEnd_append_exact (p := (· == '#')) (a := before ++ [blank])
      (b := List.replicate (n + 1) '#') (by simpa using hmark) (by simp)
    rw [hsplit, ← List.getLast?_reverse, hend]
    refine ⟨?_, by simpa using hblank⟩
    rw [List.replicate_succ', ← List.append_assoc, List.getLast?_concat]
  · rintro ⟨hlast, hblank⟩
    obtain ⟨n, htext⟩ := exists_runAtEnd '#' text
    obtain ⟨blank, hbefore, hblank⟩ := (Option.any_eq_true ..).1 hblank
    rw [← List.getLast?_reverse] at hbefore
    obtain ⟨before, hbefore⟩ := List.getLast?_eq_some_iff.1 hbefore
    rw [hbefore] at htext
    rcases Nat.eq_zero_or_pos n with rfl | hn
    · rw [htext, List.replicate_zero, List.append_nil, List.getLast?_concat] at hlast
      cases hlast
      cases hblank
    · exact ⟨before, blank, n, hblank, hn, by rw [htext, List.append_assoc]; rfl⟩

instance (text : List Char) : Decidable (EndsClosed text) := decidable_of_iff' _ endsClosed_iff

/-- A text behind a space, if there is a text. -/
def spaced (text : List Char) : List Char := if text = [] then [] else ' ' :: text

/-- A heading as it is written. -/
structure HeadingLine where
  margin : Nat
  depth : Nat
  text : List Char
  /-- The length of the closing run, which is zero if there is none. -/
  closing : Nat
  /-- The blanks at the end. -/
  blanks : List Char
  margin_le : margin ≤ 3
  depth_pos : 0 < depth
  depth_le : depth ≤ 6
  oneLine : ∀ c ∈ text, Text.isLineBoundary c = false
  head_not_space : ∀ c, text.head? = some c → Text.isSpace c = false
  last_not_space : ∀ c, text.getLast? = some c → Text.isSpace c = false
  not_closed : ¬ EndsClosed text
  blanks_blank : ∀ c ∈ blanks, isBlankChar c = true

namespace HeadingLine

/-- The closing run. -/
def marks (l : HeadingLine) : List Char := List.replicate l.closing '#'

/-- What stands behind the hash marks that tell the depth. -/
def content (l : HeadingLine) : List Char := spaced l.text ++ (spaced l.marks ++ l.blanks)

/-- The line itself. -/
def line (l : HeadingLine) : List Char :=
  List.replicate l.margin ' ' ++ (List.replicate l.depth '#' ++ l.content)

/-- The text that is read: the closing run where there is no other. -/
def shown (l : HeadingLine) : List Char := if l.text = [] then l.marks else l.text

variable (l : HeadingLine)

theorem shown_of_text (h : l.text = [] → l.closing = 0) : l.shown = l.text := by
  unfold shown
  split
  next hnone => rw [hnone, marks, h hnone, List.replicate_zero]
  next => rfl

/-! ### The text of a line -/

theorem mem_marks {c : Char} (h : c ∈ l.marks) : c = '#' := List.eq_of_mem_replicate h

/-- Behind the depth there is a blank, or nothing at all. -/
theorem head?_content {c : Char} (h : l.content.head? = some c) : isBlankChar c = true := by
  unfold content spaced at h
  split at h
  next =>
    split at h
    next =>
      simp only [List.nil_append] at h
      exact l.blanks_blank c (List.mem_of_head? h)
    next =>
      cases h
      rfl
  next =>
    cases h
    rfl

theorem dropWhile_content : l.content.dropWhile isBlankChar =
    if l.text = [] then (if l.marks = [] then [] else l.marks ++ l.blanks)
    else l.text ++ (spaced l.marks ++ l.blanks) := by
  have hspace : ∀ c ∈ [' '], isBlankChar c = true := by simp [isBlankChar]
  unfold content
  split
  next htext =>
    rw [htext, spaced, if_pos rfl, List.nil_append]
    split
    next hmarks =>
      rw [hmarks, spaced, if_pos rfl, List.nil_append]
      exact List.dropWhile_eq_nil_iff.2 l.blanks_blank
    next hmarks =>
      rw [spaced, if_neg hmarks]
      refine dropWhile_append_exact (a := [' ']) (b := l.marks ++ l.blanks) hspace ?_
      intro c hc
      rw [List.head?_append_of_ne_nil _ hmarks] at hc
      rw [l.mem_marks (List.mem_of_head? hc)]
      rfl
  next htext =>
    rw [spaced, if_neg htext]
    refine dropWhile_append_exact (a := [' ']) (b := l.text ++ (spaced l.marks ++ l.blanks))
      hspace ?_
    intro c hc
    rw [List.head?_append_of_ne_nil _ htext] at hc
    exact isBlankChar_of_not_isSpace (l.head_not_space c hc)

/-- Without the blanks at both ends there is the text, with the closing run behind it. -/
theorem dropBlanksAtEnd_content : dropBlanksAtEnd (l.content.dropWhile isBlankChar) =
    if l.text = [] then l.marks else l.text ++ spaced l.marks := by
  have hmarks : ∀ c, l.marks.getLast? = some c → isBlankChar c = false := by
    intro c hc
    rw [l.mem_marks (List.mem_of_getLast? hc)]
    rfl
  rw [dropWhile_content, dropBlanksAtEnd]
  split
  next htext =>
    split
    next hnone => rw [hnone, List.reverse_nil, List.dropWhile_nil, List.reverse_nil]
    next => exact dropEnd_append_exact hmarks l.blanks_blank
  next htext =>
    rw [← List.append_assoc]
    refine dropEnd_append_exact ?_ l.blanks_blank
    intro c hc
    unfold spaced at hc
    split at hc
    next =>
      rw [List.append_nil] at hc
      exact isBlankChar_of_not_isSpace (l.last_not_space c hc)
    next hsome =>
      rw [List.getLast?_append_of_ne_nil _ (List.cons_ne_nil _ _),
        List.getLast?_cons_of_ne_nil hsome] at hc
      exact hmarks c hc

/-- A text that is no closed one keeps its hash marks. -/
theorem dropClosingMarks_of_not_endsClosed {text : List Char} (hclosed : ¬ EndsClosed text)
    (hlast : ∀ c, text.getLast? = some c → isBlankChar c = false) :
    dropClosingMarks text = text := by
  unfold dropClosingMarks
  refine if_neg fun hblank => ?_
  rw [List.getLast?_reverse] at hblank
  by_cases hmark : text.getLast? = some '#'
  · exact hclosed (endsClosed_iff.2 ⟨hmark, hblank⟩)
  · -- Without hash marks at the end it is the end of the text itself that is looked at.
    have hkept : text.reverse.dropWhile (· == '#') = text.reverse := by
      refine dropWhile_append_exact (a := []) (b := text.reverse) (by simp) fun c hc => ?_
      rw [List.head?_reverse] at hc
      refine beq_eq_false_iff_ne.2 fun he => hmark ?_
      rw [hc, he]
    obtain ⟨blank, hhead, hblank⟩ := (Option.any_eq_true ..).1 hblank
    rw [hkept, List.head?_reverse] at hhead
    rw [hlast blank hhead] at hblank
    cases hblank

/-- A closing run behind a text goes, with the space before it. -/
theorem dropClosingMarks_append {text marks : List Char} (hmarks : ∀ c ∈ marks, c = '#')
    (hlast : ∀ c, text.getLast? = some c → isBlankChar c = false) :
    dropClosingMarks (text ++ ' ' :: marks) = text := by
  have hsplit : text ++ ' ' :: marks = (text ++ [' ']) ++ marks := by simp
  have hbefore : ((text ++ ' ' :: marks).reverse.dropWhile (· == '#')).reverse = text ++ [' '] := by
    rw [hsplit]
    refine dropEnd_append_exact (fun c hc => ?_) fun c hc => by simp [hmarks c hc]
    rw [List.getLast?_concat] at hc
    cases hc
    rfl
  have hblank : (text ++ [' ']).getLast?.any isBlankChar = true := by
    rw [List.getLast?_concat]
    rfl
  unfold dropClosingMarks
  rw [hbefore]
  show (if (text ++ [' ']).getLast?.any isBlankChar then _ else _) = text
  rw [if_pos hblank]
  exact dropEnd_append_exact hlast (by simp [isBlankChar])

/-- Hash marks alone are kept. -/
theorem dropClosingMarks_marks {marks : List Char} (h : ∀ c ∈ marks, c = '#') :
    dropClosingMarks marks = marks := by
  have hbefore : (marks.reverse.dropWhile (· == '#')).reverse = [] := by
    simpa using h
  unfold dropClosingMarks
  rw [hbefore]
  rfl

theorem text_content : Text.strip (dropClosingMarks
    (dropBlanksAtEnd (l.content.dropWhile isBlankChar))) = l.shown := by
  have hlast : ∀ c, l.text.getLast? = some c → isBlankChar c = false := fun c hc =>
    isBlankChar_of_not_isSpace (l.last_not_space c hc)
  have hshown : dropClosingMarks (if l.text = [] then l.marks else l.text ++ spaced l.marks) =
      l.shown := by
    unfold shown
    split
    next => exact dropClosingMarks_marks fun c => l.mem_marks
    next =>
      unfold spaced
      split
      next =>
        rw [List.append_nil]
        exact dropClosingMarks_of_not_endsClosed l.not_closed hlast
      next => exact dropClosingMarks_append (fun c => l.mem_marks) hlast
  have hends : ∀ c, l.shown.head? = some c ∨ l.shown.getLast? = some c →
      Text.isSpace c = false := by
    intro c hc
    unfold shown at hc
    split at hc
    next =>
      have hmem : c ∈ l.marks := hc.elim List.mem_of_head? List.mem_of_getLast?
      rw [l.mem_marks hmem]
      decide
    next => exact hc.elim (l.head_not_space c) (l.last_not_space c)
  rw [dropBlanksAtEnd_content, hshown, Text.strip, Text.stripOf]
  have hhead : l.shown.dropWhile Text.isSpace = l.shown :=
    dropWhile_append_exact (a := []) (by simp) fun c hc => hends c (.inl hc)
  have hend := dropEnd_append_exact (a := l.shown) (b := [])
    (fun c hc => hends c (.inr hc)) (by simp)
  rw [List.append_nil] at hend
  rw [hhead, hend]

/-! ### What is read -/

theorem dropMargin_line : dropMargin l.line = List.replicate l.depth '#' ++ l.content := by
  refine dropMargin_replicate l.margin_le ?_
  obtain ⟨depth, hdepth⟩ := Nat.exists_eq_add_one.2 l.depth_pos
  rw [hdepth, List.replicate_succ]
  simp

/-- **A line is read as the heading that is written on it.** -/
theorem ofLine?_line : Heading.ofLine? l.line = some ⟨l.depth, l.shown⟩ := by
  have hrun : l.content.head? ≠ some '#' := by
    intro hhead
    exact absurd (l.head?_content hhead) (by decide)
  have hblank : l.content.head?.all isBlankChar = true := by
    cases hhead : l.content.head? with
    | none => rfl
    | some c => exact l.head?_content hhead
  have hpos := l.depth_pos
  have hle := l.depth_le
  rw [Heading.ofLine?, dropMargin_line, takeWhile_replicate_append hrun, List.length_replicate,
    List.drop_left' List.length_replicate]
  have hvalid : (l.depth == 0 || decide (l.depth > 6) || !l.content.head?.all isBlankChar) =
      false := by
    rw [hblank]
    simp
    omega
  simp only [hvalid, Bool.false_eq_true, if_false, text_content]

theorem codeFence_line : CodeFence.ofLine? l.line = none := by
  obtain ⟨depth, hdepth⟩ := Nat.exists_eq_add_one.2 l.depth_pos
  rw [CodeFence.ofLine?, dropMargin_line, hdepth, List.replicate_succ, List.cons_append]
  simp

theorem isLineBoundary_line : ∀ c ∈ l.line, Text.isLineBoundary c = false := by
  have hspaced : ∀ text : List Char, (∀ c ∈ text, Text.isLineBoundary c = false) →
      ∀ c ∈ spaced text, Text.isLineBoundary c = false := by
    intro text htext c hc
    unfold spaced at hc
    split at hc
    · cases hc
    · rcases List.mem_cons.1 hc with rfl | hc
      · decide
      · exact htext c hc
  have hmarks : ∀ c ∈ l.marks, Text.isLineBoundary c = false := by
    intro c hc
    rw [l.mem_marks hc]
    decide
  intro c hc
  simp only [line, content, List.mem_append] at hc
  rcases hc with hc | hc | hc | hc | hc
  · rw [List.eq_of_mem_replicate hc]
    decide
  · rw [List.eq_of_mem_replicate hc]
    decide
  · exact hspaced _ l.oneLine c hc
  · exact hspaced _ hmarks c hc
  · rcases isBlankChar_iff.1 (l.blanks_blank c hc) with rfl | rfl
    · decide
    · decide

theorem line_ne_nil : l.line ≠ [] := by
  have hpos := l.depth_pos
  intro hnil
  have hlength := congrArg List.length hnil
  simp only [line, List.length_append, List.length_replicate, List.length_nil] at hlength
  omega

end HeadingLine

/-- Lines on which headings are written open no fence, and each of them is read. -/
theorem headingsIn_lines (ls : List HeadingLine) :
    headingsIn none (ls.map HeadingLine.line) = ls.map fun l => ⟨l.depth, l.shown⟩ := by
  induction ls with
  | nil => rfl
  | cons l ls ih =>
      have hheading : headingAt none l.line = [⟨l.depth, l.shown⟩] := by
        rw [headingAt, l.codeFence_line, l.ofLine?_line]
        rfl
      have hnext : CodeFence.next none l.line = none := by
        rw [CodeFence.next, l.codeFence_line]
      rw [List.map_cons, headingsIn_cons, hheading, hnext, ih]
      rfl

/-- The text of headings, each written on a line of its own. -/
def writtenText (ls : List HeadingLine) : List Char :=
  ['\n'].intercalate (ls.map HeadingLine.line)

/-- A heading without a text. -/
def HeadingLine.bare (depth closing : Nat) (depth_pos : 0 < depth) (depth_le : depth ≤ 6) :
    HeadingLine where
  margin := 0
  depth := depth
  text := []
  closing := closing
  blanks := []
  margin_le := Nat.zero_le 3
  depth_pos := depth_pos
  depth_le := depth_le
  oneLine := by simp
  head_not_space := by rintro c ⟨⟩
  last_not_space := by rintro c ⟨⟩
  not_closed := by decide
  blanks_blank := by simp

theorem lines_writtenText (ls : List HeadingLine) :
    Text.lines (writtenText ls) = ls.map HeadingLine.line := by
  refine Text.lines_intercalate ?_ ?_
  · intro line hline
    obtain ⟨l, -, rfl⟩ := List.mem_map.1 hline
    exact l.isLineBoundary_line
  · intro line hline
    obtain ⟨l, -, rfl⟩ := List.mem_map.1 hline
    exact l.line_ne_nil

/-- **Headings that are written are read again**, in order, each with the slug of its text, as long
as every closing run stands behind a text. A closing run without a text before it is read as the
text. -/
theorem headings_written (ls : List HeadingLine) :
    ((∀ l ∈ ls, l.text = [] → l.closing = 0) →
      headings (writtenText ls) = ls.map (fun l => ⟨l.depth, l.text⟩) ∧
      (headings (writtenText ls)).map Heading.slug = ls.map fun l => slug l.text) ∧
    headings (writtenText ls) = ls.map fun l =>
      ⟨l.depth, if l.text = [] then List.replicate l.closing '#' else l.text⟩ := by
  have hread : headings (writtenText ls) = ls.map fun l => ⟨l.depth, l.shown⟩ := by
    rw [headings, lines_writtenText, headingsIn_lines]
  refine ⟨fun hclosing => ?_, hread⟩
  have htexts : headings (writtenText ls) = ls.map fun l => ⟨l.depth, l.text⟩ := by
    rw [hread]
    refine List.map_congr_left fun l hl => ?_
    rw [l.shown_of_text (hclosing l hl)]
  refine ⟨htexts, ?_⟩
  rw [htexts, List.map_map]
  rfl

/-- A text that ends in a hash mark in front of a closing run, and no text at all. -/
theorem headings_written_sharp :
    ∃ l₁ l₂ : HeadingLine, l₁.line = "  ## C# ### \t".toList ∧ l₂.line = "######".toList ∧
      (∀ l ∈ [l₁, l₂], l.text = [] → l.closing = 0) ∧
      headings "  ## C# ### \t\n######".toList = [⟨2, "C#".toList⟩, ⟨6, []⟩] ∧
      (headings "  ## C# ### \t\n######".toList).map Heading.slug = [['c'], []] := by
  let l₁ : HeadingLine :=
    { margin := 2, depth := 2, text := "C#".toList, closing := 3, blanks := [' ', '\t']
      margin_le := by decide
      depth_pos := by decide
      depth_le := by decide
      oneLine := by simp [Text.isLineBoundary]
      head_not_space := by rintro c ⟨⟩; decide
      last_not_space := by rintro c ⟨⟩; decide
      not_closed := by decide
      blanks_blank := by simp [isBlankChar] }
  let l₂ : HeadingLine := .bare 6 0 (by decide) (by decide)
  have hclosing : ∀ l ∈ [l₁, l₂], l.text = [] → l.closing = 0 := by
    intro l hl
    rcases List.mem_pair.1 hl with rfl | rfl
    · rintro ⟨⟩
    · intro _
      rfl
  obtain ⟨hread, hslugs⟩ := (headings_written [l₁, l₂]).1 hclosing
  have hslug : slug l₁.text = ['c'] := by decide +kernel
  exact ⟨l₁, l₂, by decide, by decide, hclosing, hread,
    hslugs.trans (congrArg (· :: [[]]) hslug)⟩

/-- A closing run without a text is read as the text. -/
theorem closing_run_read_as_text :
    ∃ l : HeadingLine, l.line = "# #".toList ∧ l.depth = 1 ∧ l.text = [] ∧
      headings (writtenText [l]) = [⟨1, ['#']⟩] ∧
      headings (writtenText [l]) ≠ [⟨l.depth, l.text⟩] := by
  let l : HeadingLine := .bare 1 1 (by decide) (by decide)
  have hread : headings (writtenText [l]) = [⟨1, ['#']⟩] := by decide
  refine ⟨l, by decide, rfl, rfl, hread, ?_⟩
  rw [hread]
  rintro ⟨⟩

end Winnow.Markup
