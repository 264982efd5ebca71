import Mathlib.Tactic
import Winnow.Text.Lines

/-!
# Cutting texts

Cutting a text at a separator is the cutting of lists that the library knows; the pieces hold no
separator, and joined by it they are the text again. Cutting it into lines goes piece by piece where
a piece ends in a line feed.
-/

namespace Winnow.Text

theorem splitOn_eq (sep : Char) (s : List Char) : splitOn sep s = s.splitOn sep := by
  induction s with
  | nil => rfl
  | cons c rest ih =>
      rw [splitOn, ih, List.splitOn_cons_eq_if_modifyHead]
      by_cases h : c = sep
      · simp [h]
      · simp only [h, if_false, beq_iff_eq]
        cases hrest : rest.splitOn sep with
        | nil => exact absurd hrest (List.splitOn_ne_nil sep rest)
        | cons piece pieces => rfl

theorem splitOn_ne_nil (sep : Char) (s : List Char) : splitOn sep s ≠ [] := by
  rw [splitOn_eq]
  exact List.splitOn_ne_nil sep s

/-- The pieces joined again are the text. -/
theorem intercalate_splitOn (sep : Char) (s : List Char) :
    [sep].intercalate (splitOn sep s) = s := by
  rw [splitOn_eq]
  exact List.intercalate_splitOn sep

theorem splitOn_intercalate {sep : Char} {pieces : List (List Char)}
    (h : ∀ piece ∈ pieces, sep ∉ piece) (hne : pieces ≠ []) :
    splitOn sep ([sep].intercalate pieces) = pieces := by
  rw [splitOn_eq]
  exact List.splitOn_intercalate sep h hne

theorem splitOn_append (sep : Char) (head rest : List Char) :
    splitOn sep (head ++ sep :: rest) = splitOn sep head ++ splitOn sep rest := by
  rw [splitOn_eq, splitOn_eq, splitOn_eq]
  exact List.splitOn_append_cons_self head rest

theorem splitOn_append_cons {sep : Char} {head : List Char} (h : sep ∉ head) (rest : List Char) :
    splitOn sep (head ++ sep :: rest) = head :: splitOn sep rest := by
  rw [splitOn_eq, splitOn_eq]
  exact List.splitOn_append_cons_self_of_not_mem h rest

theorem splitOn_of_not_mem {sep : Char} {s : List Char} (h : sep ∉ s) : splitOn sep s = [s] := by
  rw [splitOn_eq]
  exact List.splitOn_eq_singleton h

theorem not_mem_of_mem_splitOn {sep : Char} {s piece : List Char} (h : piece ∈ splitOn sep s) :
    sep ∉ piece := by
  induction s generalizing piece with
  | nil =>
      rw [List.mem_singleton.1 h]
      exact List.not_mem_nil
  | cons c rest ih =>
      rw [splitOn] at h
      by_cases hc : c = sep
      · rw [if_pos hc] at h
        rcases List.mem_cons.1 h with rfl | h
        · exact List.not_mem_nil
        · exact ih h
      · rw [if_neg hc] at h
        cases hrest : splitOn sep rest with
        | nil => exact absurd hrest (splitOn_ne_nil sep rest)
        | cons first pieces =>
            rw [hrest] at h
            rcases List.mem_cons.1 h with rfl | h
            · intro hmem
              rcases List.mem_cons.1 hmem with he | hmem
              · exact hc he.symm
              · exact ih (hrest ▸ List.mem_cons_self) hmem
            · exact ih (hrest ▸ List.mem_cons_of_mem _ h)

/-- A text whose last piece is empty is empty or ends in the separator. -/
theorem getLast?_of_getLast?_splitOn {sep : Char} {s : List Char}
    (h : (splitOn sep s).getLast? = some []) : s = [] ∨ s.getLast? = some sep := by
  induction s with
  | nil => exact .inl rfl
  | cons c rest ih =>
      right
      rw [splitOn] at h
      cases hrest : splitOn sep rest with
      | nil => exact absurd hrest (splitOn_ne_nil sep rest)
      | cons first pieces =>
          rw [hrest] at h ih
          by_cases hc : c = sep
          · rw [if_pos hc, List.getLast?_cons_cons] at h
            rcases ih h with rfl | hlast
            · rw [List.getLast?_singleton, hc]
            · rw [List.getLast?_cons, hlast, Option.getD_some]
          · rw [if_neg hc] at h
            cases pieces with
            | nil => cases h
            | cons second pieces =>
                simp only at h
                rw [List.getLast?_cons_cons] at h
                rw [List.getLast?_cons_cons] at ih
                rcases ih h with rfl | hlast
                · cases hrest
                · rw [List.getLast?_cons, hlast, Option.getD_some]

/-! ## Cutting once -/

theorem cut_eq_none_iff {sep : Char} {s before : List Char} :
    cut sep s = (before, none) ↔ s = before ∧ sep ∉ s := by
  induction s generalizing before with
  | nil => simp [cut]
  | cons c rest ih =>
      rw [cut]
      by_cases hc : c = sep
      · simp [hc]
      · rcases hcut : cut sep rest with ⟨first, after⟩
        simp only [hc, if_false, Prod.mk.injEq]
        constructor
        · rintro ⟨rfl, rfl⟩
          obtain ⟨rfl, hfree⟩ := ih.1 hcut
          exact ⟨rfl, by simpa [Ne.symm hc] using hfree⟩
        · rintro ⟨rfl, hfree⟩
          have hrest := ih.2 ⟨rfl, fun h => hfree (List.mem_cons_of_mem _ h)⟩
          rw [hcut] at hrest
          cases hrest
          exact ⟨rfl, rfl⟩

theorem cut_eq_some_iff {sep : Char} {s before after : List Char} :
    cut sep s = (before, some after) ↔ s = before ++ sep :: after ∧ sep ∉ before := by
  induction s generalizing before with
  | nil => simp [cut]
  | cons c rest ih =>
      rw [cut]
      by_cases hc : c = sep
      · subst hc
        rw [if_pos rfl]
        constructor
        · rintro ⟨⟩
          exact ⟨rfl, List.not_mem_nil⟩
        · rintro ⟨hs, hfree⟩
          cases before with
          | nil =>
              cases hs
              rfl
          | cons d before =>
              cases hs
              exact absurd List.mem_cons_self hfree
      · rcases hcut : cut sep rest with ⟨first, second⟩
        simp only [hc, if_false, Prod.mk.injEq]
        constructor
        · rintro ⟨rfl, rfl⟩
          obtain ⟨rfl, hfree⟩ := ih.1 hcut
          exact ⟨rfl, by simpa [Ne.symm hc] using hfree⟩
        · rintro ⟨hs, hfree⟩
          cases before with
          | nil =>
              cases hs
              exact absurd rfl hc
          | cons d before =>
              cases hs
              have hrest := ih.2 ⟨rfl, fun h => hfree (List.mem_cons_of_mem _ h)⟩
              rw [hcut] at hrest
              cases hrest
              exact ⟨rfl, rfl⟩

theorem dropHead?_eq_some_iff {head s rest : List Char} :
    dropHead? head s = some rest ↔ s = head ++ rest := by
  induction head generalizing s with
  | nil => simp [dropHead?, eq_comm]
  | cons c head ih =>
      cases s with
      | nil => simp [dropHead?]
      | cons d s =>
          rw [dropHead?]
          by_cases hcd : c = d
          · simp [hcd, ih]
          · simp [hcd, eq_comm]

/-- The pieces of a text are those before a separator and those behind it. -/
theorem pieces_append {sep : Char} {head rest s : String}
    (hs : s.toList = head.toList ++ sep :: rest.toList) :
    pieces sep s = pieces sep head ++ pieces sep rest := by
  rw [pieces, hs, splitOn_append, List.map_append, pieces, pieces]

theorem pieces_of_not_mem {sep : Char} {s : String} (h : sep ∉ s.toList) : pieces sep s = [s] := by
  rw [pieces, splitOn_of_not_mem h, List.map_singleton, String.ofList_toList]

/-- A text whose first piece is `head`. -/
theorem pieces_append_cons {sep : Char} {head rest s : String} (h : sep ∉ head.toList)
    (hs : s.toList = head.toList ++ sep :: rest.toList) :
    pieces sep s = head :: pieces sep rest := by
  rw [pieces_append hs, pieces_of_not_mem h, List.singleton_append]

/-- Pieces that hold no separator are found again between separators. -/
theorem splitOn_toList_intercalate {sep : Char} {glue : String} (hglue : glue.toList = [sep])
    {names : List String} (hne : names ≠ []) (h : ∀ name ∈ names, sep ∉ name.toList) :
    splitOn sep (glue.intercalate names).toList = names.map String.toList := by
  rw [String.toList_intercalate, hglue]
  refine splitOn_intercalate ?_ (by simpa using hne)
  intro piece hpiece
  obtain ⟨name, hname, rfl⟩ := List.mem_map.1 hpiece
  exact h name hname

theorem pieces_intercalate {sep : Char} {glue : String} (hglue : glue.toList = [sep])
    {names : List String} (hne : names ≠ []) (h : ∀ name ∈ names, sep ∉ name.toList) :
    pieces sep (glue.intercalate names) = names := by
  rw [pieces, splitOn_toList_intercalate hglue hne h, List.map_map]
  simp

/-- No piece holds the separator. -/
theorem not_mem_of_mem_pieces {sep : Char} {s piece : String} (h : piece ∈ pieces sep s) :
    sep ∉ piece.toList := by
  obtain ⟨letters, hletters, rfl⟩ := List.mem_map.1 h
  rw [String.toList_ofList]
  exact not_mem_of_mem_splitOn hletters

/-- A text in one piece. -/
theorem eq_of_pieces_eq_singleton {sep : Char} {s t : String} (h : pieces sep s = [t]) :
    s = t ∧ sep ∉ s.toList := by
  obtain ⟨piece, hsplit, rfl⟩ := List.map_eq_singleton_iff.1 h
  have hpiece : s.toList = piece := by
    rw [← intercalate_splitOn sep s.toList, hsplit]
    simp
  have hfree : sep ∉ piece := not_mem_of_mem_splitOn (hsplit ▸ List.mem_singleton_self piece)
  exact ⟨by rw [← hpiece, String.ofList_toList], hpiece ▸ hfree⟩

/-! ## Lines -/

/-- The text of lines that each end in a line feed, perhaps with a carriage return before it. -/
inductive EndedLines : List (List Char) → List Char → Prop
  | nil : EndedLines [] []
  | cons {line ending text : List Char} {lines : List (List Char)}
      (hline : ∀ c ∈ line, isLineBoundary c = false)
      (hending : ending = ['\n'] ∨ ending = ['\r', '\n']) (hrest : EndedLines lines text) :
      EndedLines (line :: lines) (line ++ ending ++ text)

theorem EndedLines.getLast? {ls : List (List Char)} {s : List Char} (h : EndedLines ls s) :
    s = [] ∨ s.getLast? = some '\n' := by
  induction h with
  | nil => exact .inl rfl
  | @cons line ending text ls _ hending _ ih =>
      right
      rcases ih with rfl | ih
      · rcases hending with rfl | rfl <;> simp
      · rw [List.getLast?_append, ih]
        rfl

/-- Away from a carriage return with a line feed behind it, characters are taken one by one. -/
theorem linesAux_cons {c : Char} {rest : List Char}
    (h : ∀ r, c = '\r' → rest = '\n' :: r → False) (current : List Char) :
    linesAux current (c :: rest) = if isLineBoundary c then current.reverse :: linesAux [] rest
      else linesAux (c :: current) rest :=
  linesAux.eq_3 current c rest h

/-- Characters that end no line are part of the line. -/
theorem linesAux_line_append {line : List Char} (h : ∀ c ∈ line, isLineBoundary c = false)
    (current rest : List Char) :
    linesAux current (line ++ rest) = linesAux (line.reverse ++ current) rest := by
  induction line generalizing current with
  | nil => rfl
  | cons c line ih =>
      have hc : isLineBoundary c = false := h c List.mem_cons_self
      have hreturn : c ≠ '\r' := by
        rintro rfl
        cases hc
      rw [List.cons_append, linesAux_cons fun _ h => absurd h hreturn, if_neg (by simp [hc]),
        ih fun d hd => h d (List.mem_cons_of_mem c hd), List.reverse_cons, List.append_assoc]
      rfl

theorem linesAux_append {a : List Char} (h : a.getLast? = some '\n') (current b : List Char) :
    linesAux current (a ++ b) = linesAux current a ++ lines b := by
  -- A carriage return at the end of a text would join with a line feed behind it.
  have hapart : ∀ {c : Char} {rest : List Char}, (c :: rest).getLast? = some '\n' →
      (∀ r, c = '\r' → rest = '\n' :: r → False) →
      ∀ r, c = '\r' → rest ++ b = '\n' :: r → False := by
    rintro c rest hlast hpair r rfl hrest
    rcases rest with _ | ⟨d, rest⟩
    · cases hlast
    · obtain ⟨rfl, -⟩ := List.cons.inj hrest
      exact hpair rest rfl rfl
  have hnext : ∀ {c : Char} {rest : List Char}, (c :: rest).getLast? = some '\n' → rest ≠ [] →
      rest.getLast? = some '\n' := by
    rintro c (_ | ⟨d, rest⟩) hlast hne
    · exact absurd rfl hne
    · exact hlast
  fun_induction linesAux current a with
  | case1 => cases h
  | case2 => cases h
  | case3 current rest ih =>
      rw [List.cons_append, List.cons_append, linesAux, List.cons_append]
      by_cases hrest : rest = []
      · subst hrest
        rfl
      · rw [ih (hnext (hnext h (List.cons_ne_nil _ _)) hrest)]
  | case4 current c rest hpair hc ih =>
      rw [List.cons_append, linesAux_cons (hapart h hpair), if_pos hc, List.cons_append]
      by_cases hrest : rest = []
      · subst hrest
        rfl
      · rw [ih (hnext h hrest)]
  | case5 current c rest hpair hc ih =>
      rw [List.cons_append, linesAux_cons (hapart h hpair), if_neg hc]
      refine ih (hnext h ?_)
      rintro rfl
      cases h
      exact hc rfl

/-- Texts of whole lines have the lines of both. -/
theorem lines_append {a : List Char} (h : a = [] ∨ a.getLast? = some '\n') (b : List Char) :
    lines (a ++ b) = lines a ++ lines b := by
  rcases h with rfl | h
  · rfl
  · exact linesAux_append h [] b

theorem lines_of_endedLines {ls : List (List Char)} {s : List Char} (h : EndedLines ls s) :
    lines s = ls := by
  induction h with
  | nil => rfl
  | @cons line ending text ls hline hending _ ih =>
      have hfirst : lines (line ++ ending) = [line] := by
        rw [lines, linesAux_line_append hline, List.append_nil]
        rcases hending with rfl | rfl
        all_goals
          show line.reverse.reverse :: linesAux [] [] = _
          rw [List.reverse_reverse]
          rfl
      have hlast : (line ++ ending).getLast? = some '\n' := by
        rcases hending with rfl | rfl <;> simp
      rw [lines_append (.inr hlast), hfirst, ih]
      rfl

/-- Lines that are joined by line feeds are the lines of the text, if none of them is empty. -/
theorem lines_intercalate {ls : List (List Char)}
    (h : ∀ line ∈ ls, ∀ c ∈ line, isLineBoundary c = false) (hne : ∀ line ∈ ls, line ≠ []) :
    lines (['\n'].intercalate ls) = ls := by
  induction ls with
  | nil => rfl
  | cons line ls ih =>
      obtain ⟨hline, hls⟩ := List.forall_mem_cons.1 h
      obtain ⟨hfirst, hothers⟩ := List.forall_mem_cons.1 hne
      cases ls with
      | nil =>
          have hjoined : ['\n'].intercalate [line] = line ++ [] := by simp
          rw [hjoined, lines, linesAux_line_append hline, List.append_nil, linesAux,
            if_neg (by simpa using hfirst), List.reverse_reverse]
      | cons next ls =>
          have hjoined : ['\n'].intercalate (line :: next :: ls) =
              line ++ '\n' :: ['\n'].intercalate (next :: ls) := by simp
          have hend : linesAux line.reverse ('\n' :: ['\n'].intercalate (next :: ls)) =
              line.reverse.reverse :: lines (['\n'].intercalate (next :: ls)) := by
            rw [linesAux_cons (by rintro _ ⟨⟩), if_pos (by decide)]
            rfl
          rw [hjoined, lines, linesAux_line_append hline, List.append_nil, hend,
            List.reverse_reverse, ih hls hothers]

end Winnow.Text
