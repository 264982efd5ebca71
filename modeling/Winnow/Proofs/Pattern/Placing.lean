import Winnow.Proofs.Pattern.Tiling
import Winnow.Proofs.Text.Stretches

/-!
# The places of values

Where the value of a placeholder stands in a path is told by the pattern and the values in front of
it. The layout of a pattern moves separators into parameters, but neither the text nor the places
of the values change (`fullText_layout`, `spots_layout`), so each can be told from the tokens alone.
In the layout it is seen that values, each with its separator, do not overlap
(`pairwise_apart_cuts`), and that cutting some of them out leaves what the other parts make up
(`without_fullText`).
-/

namespace Winnow.Pattern

/-! ## Where placeholders stand -/

/-- What a token stands for when `w` is put in the place of the parameters. -/
def Token.filled (w : Param → List Char) : Token → List Char
  | .literal text => text.toList
  | .param q => w q

/-- The text of tokens with each placeholder replaced. -/
def fill (w : Param → List Char) (tokens : List Token) : List Char := tokens.flatMap (Token.filled w)

theorem fill_cons (w : Param → List Char) (t : Token) (rest : List Token) :
    fill w (t :: rest) = t.filled w ++ fill w rest :=
  List.flatMap_cons

/-- Where the replaced placeholders stand in the text of tokens, if that starts at `n`. -/
def placed (w : Param → List Char) (n : Nat) : List Token → List (Param × Stretch)
  | [] => []
  | .literal text :: rest => placed w (n + text.toList.length) rest
  | .param q :: rest => (q, ⟨n, n + (w q).length⟩) :: placed w (n + (w q).length) rest

theorem map_fst_placed (w : Param → List Char) (n : Nat) (tokens : List Token) :
    (placed w n tokens).map Prod.fst = paramsOf tokens := by
  fun_induction placed w n tokens <;> simp_all

/-- The placeholder of a parameter. -/
def Param.written (q : Param) : List Char := (Token.render (.param q)).toList

theorem fill_written (tokens : List Token) : fill Param.written tokens = (render tokens).toList := by
  rw [toList_render, fill]
  congr 1
  funext t
  cases t <;> rfl

namespace Fold

/-- The number of separators in front of a value. -/
def ahead : Fold → Nat
  | .before => 1
  | _ => 0

/-- The number of separators behind a value. -/
def behind : Fold → Nat
  | .after => 1
  | _ => 0

/-- The stretch of a value together with its separator. -/
def widen (fold : Fold) (s : Stretch) : Stretch := ⟨s.start - fold.ahead, s.stop + fold.behind⟩

/-- Whether the separator of a value that covers `s` is there. -/
def Borders (text : List Char) (s : Stretch) : Fold → Prop
  | .none => True
  | .before => ∃ i, s.start = i + 1 ∧ text[i]? = some separator
  | .after => text[s.stop]? = some separator

theorem wrap_eq (fold : Fold) (v : List Char) : fold.wrap v =
    List.replicate fold.ahead separator ++ (v ++ List.replicate fold.behind separator) := by
  cases fold <;> simp [wrap, ahead, behind]

theorem length_wrap_eq (fold : Fold) (v : List Char) :
    (fold.wrap v).length = fold.ahead + v.length + fold.behind := by
  rw [wrap_eq]
  simp [Nat.add_assoc]

end Fold

/-- The stretches of the `absent` parameters, each with the separator on its side. -/
def cuts (side : Param → Fold) (absent : Param → Bool) (spots : List (Param × Stretch)) :
    List Stretch :=
  (spots.filter fun e => absent e.1).map fun e => (side e.1).widen e.2

/-- That `side` has every parameter take the separator along that is folded into its part. -/
def Tells (side : Param → Fold) (parts : List Part) : Prop :=
  ∀ q fold, .param q fold ∈ parts → side q = fold

theorem Tells.tail {side : Param → Fold} {part : Part} {rest : List Part}
    (h : Tells side (part :: rest)) : Tells side rest :=
  fun q fold hq => h q fold (List.mem_cons_of_mem part hq)

theorem Tells.head {side : Param → Fold} {q : Param} {fold : Fold} {rest : List Part}
    (h : Tells side (.param q fold :: rest)) : side q = fold :=
  h q fold List.mem_cons_self

/-! ## The text of a layout -/

/-- What a part is given when the `absent` parameters are left out. -/
def Part.filled (w : Param → List Char) (absent : Param → Bool) : Part → Choice
  | .literal _ => none
  | .param q _ => if absent q then none else some (w q)

/-- The text of parts when no parameter is left out. -/
def fullText (w : Param → List Char) (parts : List Part) : List Char :=
  textOf parts (Part.filled w fun _ => false)

/-- Where the values stand in the text of parts, if that starts at `n`. -/
def spots (w : Param → List Char) (n : Nat) : List Part → List (Param × Stretch)
  | [] => []
  | .literal text :: rest => spots w (n + text.toList.length) rest
  | .param q fold :: rest =>
    (q, ⟨n + fold.ahead, n + fold.ahead + (w q).length⟩) ::
      spots w (n + (fold.wrap (w q)).length) rest

section Parts

variable {w : Param → List Char} {parts : List Part} {n : Nat} {q : Param} {fold : Fold}
  {side : Param → Fold}

@[simp] theorem fullText_nil : fullText w [] = [] := rfl

@[simp] theorem fullText_literal (text : String) (rest : List Part) :
    fullText w (.literal text :: rest) = text.toList ++ fullText w rest := rfl

@[simp] theorem fullText_param (q : Param) (fold : Fold) (rest : List Part) :
    fullText w (.param q fold :: rest) = fold.wrap (w q) ++ fullText w rest := rfl

theorem fullText_append (front rest : List Part) :
    fullText w (front ++ rest) = fullText w front ++ fullText w rest :=
  List.flatMap_append

@[simp] theorem fullText_literalPart (text : List Char) : fullText w (literalPart text) = text := by
  cases text <;> simp [literalPart]

theorem spots_append (front rest : List Part) :
    spots w n (front ++ rest) = spots w n front ++ spots w (n + (fullText w front).length) rest := by
  induction front generalizing n with
  | nil => rfl
  | cons part front ih => cases part <;> simp [spots, ih, Nat.add_assoc]

@[simp] theorem spots_literalPart (text : List Char) : spots w n (literalPart text) = [] := by
  cases text <;> simp [literalPart, spots]

/-- **Where a value stands**: behind the text of the parts in front of its own. -/
theorem mem_spots_iff {s : Stretch} : (q, s) ∈ spots w n parts ↔
    ∃ front fold rest, parts = front ++ .param q fold :: rest ∧
      s.start = n + (fullText w front).length + fold.ahead ∧ s.stop = s.start + (w q).length := by
  constructor
  · intro h
    induction parts generalizing n with
    | nil => cases h
    | cons part parts ih =>
        cases part with
        | literal text =>
            obtain ⟨front, fold, rest, rfl, hstart, hstop⟩ := ih h
            refine ⟨.literal text :: front, fold, rest, rfl, ?_, hstop⟩
            rw [hstart, fullText_literal, List.length_append]
            omega
        | param r f =>
            rcases List.mem_cons.1 h with he | h
            · cases he
              exact ⟨[], f, parts, rfl, by simp, rfl⟩
            · obtain ⟨front, fold, rest, rfl, hstart, hstop⟩ := ih h
              refine ⟨.param r f :: front, fold, rest, rfl, ?_, hstop⟩
              rw [hstart, fullText_param, List.length_append]
              omega
  · rintro ⟨front, fold, rest, rfl, hstart, hstop⟩
    rw [spots_append]
    refine List.mem_append_right _ (List.mem_cons.2 (.inl ?_))
    rw [Prod.mk.injEq, ← hstart, ← hstop]
    exact ⟨rfl, rfl⟩

/-- The text around a value. -/
theorem exists_fullText_eq {s : Stretch} (h : (q, s) ∈ spots w 0 parts) :
    ∃ front fold rest, parts = front ++ .param q fold :: rest ∧
      fullText w parts = fullText w front ++ (fold.wrap (w q) ++ fullText w rest) ∧
      s.start = (fullText w front).length + fold.ahead ∧ s.stop = s.start + (w q).length := by
  obtain ⟨front, fold, rest, rfl, hstart, hstop⟩ := mem_spots_iff.1 h
  exact ⟨front, fold, rest, rfl, by rw [fullText_append, fullText_param], by omega, hstop⟩

theorem cover_fullText {s : Stretch} (h : (q, s) ∈ spots w 0 parts) :
    s.cover (fullText w parts) = w q := by
  obtain ⟨front, fold, rest, -, htext, hstart, hstop⟩ := exists_fullText_eq h
  rw [htext, Fold.wrap_eq, List.append_assoc, List.append_assoc, ← List.append_assoc]
  exact Stretch.cover_append (by simp [hstart]) hstop

/-- The separator that is folded into a parameter stands next to its value. -/
theorem borders_fullText (hside : Tells side parts) {s : Stretch} (h : (q, s) ∈ spots w 0 parts) :
    (side q).Borders (fullText w parts) s := by
  obtain ⟨front, fold, rest, rfl, htext, hstart, hstop⟩ := exists_fullText_eq h
  rw [hside q fold (by simp), htext]
  cases fold with
  | none => trivial
  | before => exact ⟨_, hstart, by simp [Fold.wrap]⟩
  | after =>
      rw [Fold.Borders, hstop, hstart]
      simp [Fold.ahead, Fold.wrap]

/-! ## Cutting parameters out -/

/-- A value with its separator begins behind the parts in front of it. -/
theorem le_start_of_mem_spots (hside : Tells side parts) {s : Stretch}
    (h : (q, s) ∈ spots w n parts) : n ≤ ((side q).widen s).start := by
  obtain ⟨front, fold, rest, rfl, hstart, -⟩ := mem_spots_iff.1 h
  rw [hside q fold (by simp), Fold.widen, hstart]
  dsimp only
  omega

theorem le_start_of_mem_cuts (hside : Tells side parts) {absent : Param → Bool} {s : Stretch}
    (h : s ∈ cuts side absent (spots w n parts)) : n ≤ s.start := by
  obtain ⟨⟨q, s⟩, hmem, rfl⟩ := List.mem_map.1 h
  exact le_start_of_mem_spots hside (List.mem_of_mem_filter hmem)

/-- With its separator, the first value of parts covers the text of its own part. -/
theorem cuts_spots_param (hq : side q = fold) (absent : Param → Bool)
    (rest : List Part) : cuts side absent (spots w n (.param q fold :: rest)) =
      (if absent q then [⟨n, n + (fold.wrap (w q)).length⟩] else []) ++
        cuts side absent (spots w (n + (fold.wrap (w q)).length) rest) := by
  have hwiden : fold.widen ⟨n + fold.ahead, n + fold.ahead + (w q).length⟩ =
      ⟨n, n + (fold.wrap (w q)).length⟩ := by
    rw [Fold.widen, Fold.length_wrap_eq, Stretch.mk.injEq]
    dsimp only
    omega
  rw [spots, cuts, List.filter_cons]
  cases absent q with
  | true => simp only [if_true, List.map_cons, hq, hwiden, List.singleton_append, cuts]
  | false => simp only [Bool.false_eq_true, if_false, List.nil_append, cuts]

/-- **No character is cut out twice.** -/
theorem pairwise_apart_cuts (hside : Tells side parts) (absent : Param → Bool) :
    (cuts side absent (spots w n parts)).Pairwise Stretch.Apart := by
  induction parts generalizing n with
  | nil => exact .nil
  | cons part parts ih =>
      cases part with
      | literal text => exact ih hside.tail
      | param q fold =>
          rw [cuts_spots_param hside.head]
          split
          · refine List.pairwise_cons.2 ⟨fun s hs => ?_, ih hside.tail⟩
            exact Stretch.apart_of_le (le_start_of_mem_cuts hside.tail hs)
          · exact ih hside.tail

theorem apart_of_mem_spots (hside : Tells side parts) {r : Param} {s t : Stretch}
    (hs : (q, s) ∈ spots w n parts) (ht : (r, t) ∈ spots w n parts) (hne : q ≠ r) :
    ((side q).widen s).Apart ((side r).widen t) := by
  have hapart := pairwise_apart_cuts (w := w) (n := n) hside fun _ => true
  rw [cuts, List.filter_true, List.pairwise_map] at hapart
  have : Std.Symm fun e f : Param × Stretch =>
      ((side e.1).widen e.2).Apart ((side f.1).widen f.2) := ⟨fun _ _ h => h.symm⟩
  exact hapart.forall hs ht fun he => hne (congrArg Prod.fst he)

/-- **Cutting values out leaves the text without their parts.** -/
theorem without_fullText (hside : Tells side parts) (absent : Param → Bool) :
    without (cuts side absent (spots w n parts)) n (fullText w parts) =
      textOf parts (Part.filled w absent) := by
  induction parts generalizing n with
  | nil => rfl
  | cons part parts ih =>
      -- The cuts of later parts lie behind the text of this one.
      have hlater : ∀ {m : Nat} {s : Stretch}, s ∈ cuts side absent (spots w m parts) →
          m ≤ s.start := fun hs => le_start_of_mem_cuts hside.tail hs
      cases part with
      | literal text =>
          rw [spots, fullText_literal, without_append, ih hside.tail,
            without_eq_self fun s hs => hlater hs]
          rfl
      | param q fold =>
          rw [cuts_spots_param hside.head, fullText_param, without_append, textOf_cons, Part.filled]
          cases absent q with
          | true =>
              rw [if_pos rfl, List.singleton_append,
                without_eq_nil List.mem_cons_self (Nat.le_refl n) (Nat.le_refl _),
                without_cons_of_le (Nat.le_refl _), ih hside.tail]
              rfl
          | false =>
              rw [if_neg Bool.false_ne_true, List.nil_append,
                without_eq_self fun s hs => hlater hs, ih hside.tail]
              rfl

end Parts

/-! ## The layout moves separators -/

theorem dropSeparator?_eq_some_iff {text text' : List Char} :
    dropSeparator? text = some text' ↔ text = text' ++ [separator] := by
  rw [dropSeparator?]
  constructor
  · intro h
    split at h
    next hlast =>
      cases h
      exact (List.dropLast_append_getLast? _ hlast).symm
    next => cases h
  · rintro rfl
    simp

/-- **The layout keeps the text**, whatever is put in the place of the parameters. -/
theorem fullText_layout (w : Param → List Char) (tokens : List Token) :
    fullText w (layout tokens) = fill w tokens := by
  fun_induction layout tokens with
  | case1 => rfl
  | case2 text q rest text' _ hdrop ih =>
      rw [fullText_append, fullText_literalPart, fullText_param, ih, fill_cons, fill_cons,
        Token.filled, Token.filled, dropSeparator?_eq_some_iff.1 hdrop]
      simp [Fold.wrap]
  | case3 text q rest _ ih =>
      rw [fullText_append, fullText_literalPart, ih, fill_cons w (.literal text), Token.filled]
  | case4 text rest _ ih =>
      rw [fullText_append, fullText_literalPart, ih, fill_cons w (.literal text), Token.filled]
  | case5 q text rest text' _ htext ih =>
      rw [fullText_param, ih, fill_cons, fill_cons, fill_cons, Token.filled, Token.filled,
        Token.filled, htext]
      simp [Fold.wrap]
  | case6 q text rest _ _ _ _ _ ih => rw [fullText_param, ih, fill_cons w (.param q)]; rfl
  | case7 q text rest _ ih => rw [fullText_param, ih, fill_cons w (.param q)]; rfl
  | case8 q rest _ ih => rw [fullText_param, ih, fill_cons w (.param q)]; rfl

/-- **The layout keeps the values where they are.** -/
theorem spots_layout (w : Param → List Char) (n : Nat) (tokens : List Token) :
    spots w n (layout tokens) = placed w n tokens := by
  fun_induction layout tokens generalizing n with
  | case1 => rfl
  | case2 text q rest text' _ hdrop ih =>
      have hlength : text.toList.length = text'.length + 1 := by
        rw [dropSeparator?_eq_some_iff.1 hdrop, List.length_append, List.length_singleton]
      rw [spots_append, spots_literalPart, fullText_literalPart, spots, ih, placed, placed, hlength,
        Fold.length_wrap_eq]
      simp [Fold.ahead, Fold.behind, Nat.add_assoc, Nat.add_comm 1]
  | case3 text q rest _ ih =>
      rw [spots_append, spots_literalPart, fullText_literalPart, ih, placed, List.nil_append]
  | case4 text rest _ ih =>
      rw [spots_append, spots_literalPart, fullText_literalPart, ih, placed, List.nil_append]
  | case5 q text rest text' _ htext ih =>
      rw [spots, ih, placed, placed, placed, htext, Fold.length_wrap_eq]
      simp [Fold.ahead, Fold.behind, Nat.add_assoc, Nat.add_comm 1]
  | case6 q text rest _ _ _ _ _ ih => rw [spots, ih]; rfl
  | case7 q text rest _ ih => rw [spots, ih]; rfl
  | case8 q rest _ ih => rw [spots, ih]; rfl

end Winnow.Pattern
