import Winnow.Pattern.Template
import Winnow.Proofs.Files.Walking
import Winnow.Proofs.Pattern.Rebuilding
import Winnow.Proofs.Text.Splitting

/-!
# What wildcards cover

A template text stands for texts in which its stars have been filled in and its escapes undone
(`Covers`). It is cut at its separators into segments, which must not lose any of these texts: cut
at their own separators, they are reached by the segments (`reaches_walkable`). Two stars cover
separators as well. As a segment of their own they are any depth; among other text everything from
there on is admitted. So every path that fits a pattern is reached by an alternative of its
template, whatever of its values is known (`template_covers`), and a walk along it finds the path
(`exists_alternative`).
-/

namespace Winnow.Files

open Pattern Text

/-- Characters that mean something else in a wildcard. -/
def IsMagic (c : Char) : Prop := c = '*' ∨ c = '?' ∨ c = '['

instance (c : Char) : Decidable (IsMagic c) := inferInstanceAs (Decidable (_ ∨ _ ∨ _))

/-- Whether a template text stands for a text. -/
inductive Covers : List Char → List Char → Prop
  | nil : Covers [] []
  | char {c : Char} {t s : List Char} (hc : ¬ IsMagic c) (h : Covers t s) : Covers (c :: t) (c :: s)
  | escaped {c : Char} {t s : List Char} (hc : IsMagic c) (h : Covers t s) :
      Covers ('[' :: c :: ']' :: t) (c :: s)
  | star {v t s : List Char} (hv : separator ∉ v) (h : Covers t s) : Covers ('*' :: t) (v ++ s)
  | rest {t s : List Char} (v : List Char) (h : Covers t s) : Covers ('*' :: '*' :: t) (v ++ s)

namespace Covers

variable {t t' s s' : List Char}

theorem append (h : Covers t s) (h' : Covers t' s') : Covers (t ++ t') (s ++ s') := by
  induction h with
  | nil => exact h'
  | char hc _ ih => exact .char hc ih
  | escaped hc _ ih => exact .escaped hc ih
  | star hv _ ih =>
      rw [List.append_assoc]
      exact .star hv ih
  | rest v _ ih =>
      rw [List.append_assoc]
      exact .rest v ih

theorem escapeWildcards (s : List Char) : Covers (escapeWildcards s) s := by
  induction s with
  | nil => exact .nil
  | cons c s ih =>
      rw [Pattern.escapeWildcards, List.flatMap_cons]
      by_cases hc : IsMagic c
      · rw [if_pos (by simpa [IsMagic, or_assoc] using hc)]
        exact .escaped hc ih
      · rw [if_neg (by simpa [IsMagic, or_assoc] using hc)]
        exact .char hc ih

theorem separator_not_magic : ¬ IsMagic separator := by decide

/-- A separator of the template stands for one in the text. -/
theorem split {a b : List Char} (h : Covers (a ++ separator :: b) s) (ha : separator ∉ a) :
    ∃ s₁ s₂, s = s₁ ++ separator :: s₂ ∧ Covers a s₁ ∧ Covers b s₂ := by
  generalize ht : a ++ separator :: b = t at h
  induction h generalizing a with
  | nil => cases a <;> cases ht
  | @char c t s hc h ih =>
      cases a with
      | nil =>
          obtain ⟨rfl, rfl⟩ := List.cons.inj ht
          exact ⟨[], s, rfl, .nil, h⟩
      | cons d a =>
          obtain ⟨rfl, htail⟩ := List.cons.inj ht
          obtain ⟨s₁, s₂, rfl, h₁, h₂⟩ := ih (fun hd => ha (List.mem_cons_of_mem _ hd)) htail
          exact ⟨d :: s₁, s₂, rfl, .char hc h₁, h₂⟩
  | @escaped c t s hc h ih =>
      -- No separator stands inside an escape.
      rcases a with _ | ⟨d, _ | ⟨d', _ | ⟨d'', a⟩⟩⟩
      · cases (List.cons.inj ht).1
      · obtain ⟨hd, -⟩ := List.cons.inj (List.cons.inj ht).2
        exact absurd (hd ▸ hc) separator_not_magic
      · cases (List.cons.inj (List.cons.inj (List.cons.inj ht).2).2).1
      · simp only [List.cons_append, List.cons.injEq] at ht
        obtain ⟨rfl, rfl, rfl, ht⟩ := ht
        have ha' : separator ∉ a := fun hd =>
          ha (List.mem_cons_of_mem _ (List.mem_cons_of_mem _ (List.mem_cons_of_mem _ hd)))
        obtain ⟨s₁, s₂, rfl, h₁, h₂⟩ := ih ha' ht
        exact ⟨d' :: s₁, s₂, rfl, .escaped hc h₁, h₂⟩
  | @star v t s hv h ih =>
      cases a with
      | nil => cases (List.cons.inj ht).1
      | cons d a =>
          obtain ⟨rfl, htail⟩ := List.cons.inj ht
          obtain ⟨s₁, s₂, rfl, h₁, h₂⟩ := ih (fun hd => ha (List.mem_cons_of_mem _ hd)) htail
          exact ⟨v ++ s₁, s₂, (List.append_assoc ..).symm, .star hv h₁, h₂⟩
  | @rest t s v h ih =>
      rcases a with _ | ⟨d, _ | ⟨d', a⟩⟩
      · cases (List.cons.inj ht).1
      · cases (List.cons.inj (List.cons.inj ht).2).1
      · simp only [List.cons_append, List.cons.injEq] at ht
        obtain ⟨rfl, rfl, ht⟩ := ht
        have ha' : separator ∉ a := fun hd =>
          ha (List.mem_cons_of_mem _ (List.mem_cons_of_mem _ hd))
        obtain ⟨s₁, s₂, rfl, h₁, h₂⟩ := ih ha' ht
        exact ⟨v ++ s₁, s₂, (List.append_assoc ..).symm, .rest v h₁, h₂⟩

end Covers

/-! ## Single segments -/

theorem hasDoubleStar_tail {c : Char} {t : List Char} (h : hasDoubleStar (c :: t) = false) :
    hasDoubleStar t = false := by
  rw [hasDoubleStar.eq_def] at h
  split at h
  · cases h
  next heq =>
      rw [(List.cons.inj heq).2]
      exact h
  next heq => cases heq

theorem hasDoubleStar_of_isInfix {t : List Char} (h : ['*', '*'] <:+: t) :
    hasDoubleStar t = true := by
  obtain ⟨before, behind, rfl⟩ := h
  induction before with
  | nil => rfl
  | cons c before ih =>
      by_contra hnone
      have htail := hasDoubleStar_tail (Bool.not_eq_true _ ▸ hnone)
      exact absurd ih (Bool.not_eq_true _ ▸ htail)

/-- Without a double star no separator is covered that is not there. -/
theorem Covers.free {t s : List Char} (h : Covers t s) (ht : separator ∉ t)
    (hdouble : hasDoubleStar t = false) : separator ∉ s := by
  induction h with
  | nil => exact List.not_mem_nil
  | @char c t s hc _ ih =>
      have hrest := ih (fun hd => ht (List.mem_cons_of_mem _ hd)) (hasDoubleStar_tail hdouble)
      intro hmem
      rcases List.mem_cons.1 hmem with he | hmem
      · exact ht (he ▸ List.mem_cons_self)
      · exact hrest hmem
  | @escaped c t s hc _ ih =>
      have ht' : separator ∉ t := fun hd =>
        ht (List.mem_cons_of_mem _ (List.mem_cons_of_mem _ (List.mem_cons_of_mem _ hd)))
      have hrest := ih ht'
        (hasDoubleStar_tail (hasDoubleStar_tail (hasDoubleStar_tail hdouble)))
      intro hmem
      rcases List.mem_cons.1 hmem with he | hmem
      · exact Covers.separator_not_magic (he ▸ hc)
      · exact hrest hmem
  | star hv _ ih =>
      have hrest := ih (fun hd => ht (List.mem_cons_of_mem _ hd)) (hasDoubleStar_tail hdouble)
      intro hmem
      rcases List.mem_append.1 hmem with hmem | hmem
      · exact hv hmem
      · exact hrest hmem
  | rest => cases hdouble

theorem fits_star_append {g : Glob} {s : List Char} (h : g.fits s = true) (v : List Char) :
    Glob.fits (.star :: g) (v ++ s) = true := by
  induction v with
  | nil =>
      cases s with
      | nil =>
          rw [List.nil_append, Glob.fits]
          exact h
      | cons c s =>
          rw [List.nil_append, Glob.fits, h]
          rfl
  | cons c v ih =>
      rw [List.cons_append, Glob.fits, ih, Bool.or_true]

theorem fits_star (name : List Char) : Glob.fits [.star] name = true := by
  have hfits := fits_star_append (g := []) (s := []) (by rw [Glob.fits]; rfl) name
  rwa [List.append_nil] at hfits

theorem read_char {fuel : Nat} {c : Char} {t : List Char} (hc : ¬ IsMagic c) :
    GlobPart.read (fuel + 1) (c :: t) = .char c :: GlobPart.read fuel t := by
  rw [GlobPart.read.eq_def]
  split
  · cases ‹fuel + 1 = 0›
  all_goals simp_all [IsMagic]

theorem read_escaped {fuel : Nat} {c : Char} {t : List Char} (hc : IsMagic c) :
    GlobPart.read (fuel + 1) ('[' :: c :: ']' :: t) =
      .oneOf false [(c, c)] :: GlobPart.read fuel t := by
  rcases hc with rfl | rfl | rfl <;> rfl

/-- A segment without double stars, read as a pattern for a name, takes what it covers. -/
theorem Covers.fits_read {fuel : Nat} {t s : List Char} (h : Covers t s)
    (hdouble : hasDoubleStar t = false) (hfuel : t.length ≤ fuel) :
    Glob.fits (GlobPart.read fuel t) s = true := by
  induction h generalizing fuel with
  | nil =>
      have hread : GlobPart.read fuel [] = [] := by cases fuel <;> rfl
      rw [hread, Glob.fits]
      rfl
  | @char c t s hc _ ih =>
      obtain ⟨fuel, rfl⟩ := Nat.exists_eq_add_one_of_ne_zero (by grind : fuel ≠ 0)
      rw [read_char hc, Glob.fits, ih (hasDoubleStar_tail hdouble) (by grind)]
      · simp [GlobPart.accepts]
      · simp
  | @escaped c t s hc _ ih =>
      obtain ⟨fuel, rfl⟩ := Nat.exists_eq_add_one_of_ne_zero (by grind : fuel ≠ 0)
      rw [read_escaped hc, Glob.fits,
        ih (hasDoubleStar_tail (hasDoubleStar_tail (hasDoubleStar_tail hdouble))) (by grind)]
      · simp [GlobPart.accepts]
      · simp
  | @star v t s hv _ ih =>
      obtain ⟨fuel, rfl⟩ := Nat.exists_eq_add_one_of_ne_zero (by grind : fuel ≠ 0)
      exact fits_star_append (ih (hasDoubleStar_tail hdouble) (by grind)) v
  | rest => cases hdouble

/-- A segment without magic stands for one name. -/
theorem eq_of_fits_read {fuel : Nat} {t s : List Char} (ht : ∀ c ∈ t, ¬ IsMagic c)
    (hfuel : t.length ≤ fuel) (h : Glob.fits (GlobPart.read fuel t) s = true) : s = t := by
  induction t generalizing fuel s with
  | nil =>
      have hread : GlobPart.read fuel [] = [] := by cases fuel <;> rfl
      rw [hread, Glob.fits] at h
      exact List.isEmpty_iff.1 h
  | cons c t ih =>
      obtain ⟨fuel, rfl⟩ := Nat.exists_eq_add_one_of_ne_zero (by grind : fuel ≠ 0)
      obtain ⟨hc, ht⟩ := List.forall_mem_cons.1 ht
      rw [read_char hc] at h
      cases s with
      | nil =>
          rw [Glob.fits] at h
          · cases h
          · simp
      | cons c' s =>
          rw [Glob.fits, Bool.and_eq_true] at h
          · obtain ⟨hfirst, hrest⟩ := h
            have hfirst : c' = c := by simpa [GlobPart.accepts] using hfirst
            rw [hfirst, ih ht (Nat.le_of_succ_le_succ hfuel) hrest]
          · simp

/-- A segment takes the names that fit it. -/
theorem takes_of_fits {seg name : String} (hdepth : seg ≠ "**")
    (h : Glob.fits (.ofText seg.toList) name.toList = true) : (Segment.ofText seg).Takes name := by
  rw [Segment.ofText, if_neg hdepth]
  by_cases hmagic : (seg.toList.any fun c => c == '*' || c == '?' || c == '[') = true
  · rw [if_pos hmagic]
    exact h
  · rw [if_neg hmagic, Segment.Takes]
    refine String.toList_inj.1 (eq_of_fits_read ?_ (Nat.le_refl _) h)
    intro c hc hm
    refine hmagic (List.any_eq_true.2 ⟨c, hc, ?_⟩)
    simpa [IsMagic, or_assoc] using hm

/-! ## All segments -/

/-- Whether the names of a path fit the segments of a wildcard as they are written: two stars stand
for any number of names, every other segment is a pattern for one name. -/
inductive Reaches : List String → List String → Prop
  | nil : Reaches [] []
  | next {seg name : String} {segs names : List String} (hdepth : seg ≠ "**")
      (hfits : Glob.fits (.ofText seg.toList) name.toList = true) (hrest : Reaches segs names) :
      Reaches (seg :: segs) (name :: names)
  | skip {segs names : List String} (skipped : List String) (hrest : Reaches segs names) :
      Reaches ("**" :: segs) (skipped ++ names)

theorem Reaches.of_covers {t s : List Char} {segs names : List String} (h : Covers t s)
    (hdouble : hasDoubleStar t = false) (hrest : Reaches segs names) :
    Reaches (String.ofList t :: segs) (String.ofList s :: names) := by
  refine .next ?_ ?_ hrest
  · intro ht
    have ht : t = ['*', '*'] := String.ofList_injective ht
    rw [ht] at hdouble
    cases hdouble
  · rw [String.toList_ofList, String.toList_ofList]
    exact h.fits_read hdouble (Nat.le_refl _)

theorem reaches_anything {names : List String} (h : names ≠ []) :
    Reaches ([anyDepth, ['*']].map String.ofList) names := by
  rw [← List.dropLast_append_getLast h]
  exact .skip _ (.next (by decide) (fits_star _) .nil)

theorem ofPattern_cons {seg : String} (h : seg ≠ "") (rest : List String) :
    Segment.ofPattern (seg :: rest) = Segment.ofText seg :: Segment.ofPattern rest := by
  rw [Segment.ofPattern, List.filter_cons_of_pos (by simpa using h)]
  rfl

/-- What the written segments reach fits them in a walk, which needs a name after any depth. -/
theorem Reaches.fits {segs names : List String} (h : Reaches segs names) (hne : segs ≠ [])
    (hlast : segs.getLast? ≠ some "**") (hnames : "" ∉ names) :
    Fits (Segment.ofPattern segs) names := by
  induction h with
  | nil => exact absurd rfl hne
  | @next seg name segs names hdepth hfits hrest ih =>
      have hseg : seg ≠ "" := by
        rintro rfl
        have hname : name = "" :=
          String.toList_inj.1 (eq_of_fits_read (t := []) (by simp) (Nat.le_refl _) hfits)
        exact hnames (hname ▸ List.mem_cons_self)
      rw [ofPattern_cons hseg]
      have htakes := takes_of_fits hdepth hfits
      by_cases hsegs : segs = []
      · subst hsegs
        cases hrest
        exact .last htakes
      · refine .next htakes (ih hsegs ?_ fun hmem => hnames (List.mem_cons_of_mem _ hmem))
        rwa [List.getLast?_cons_of_ne_nil hsegs] at hlast
  | @skip segs names skipped hrest ih =>
      have hsegs : segs ≠ [] := by
        rintro rfl
        exact hlast rfl
      rw [ofPattern_cons (by decide)]
      refine .skip _ (ih hsegs ?_ fun hmem => hnames (List.mem_append_right _ hmem))
      rwa [List.getLast?_cons_of_ne_nil hsegs] at hlast

theorem pieces_ne_nil (s : String) : pieces s ≠ [] := by
  simpa [pieces, Text.pieces] using splitOn_ne_nil '/' s.toList

theorem widen_ne_nil {segs : List (List Char)} (h : segs ≠ []) : widen segs ≠ [] := by
  cases segs with
  | nil => exact absurd rfl h
  | cons a rest =>
      rw [widen]
      split <;> simp

theorem closeDepth_cons (a : List Char) {rest : List (List Char)} (h : rest ≠ []) :
    closeDepth (a :: rest) = a :: closeDepth rest := by
  obtain ⟨b, rest, rfl⟩ := List.exists_cons_of_ne_nil h
  rw [closeDepth, closeDepth, List.getLast?_cons_cons]
  split <;> rfl

/-- The segments of a template reach what the template covers. -/
theorem reaches_segments {segs : List (List Char)} (hne : segs ≠ [])
    (hfree : ∀ seg ∈ segs, separator ∉ seg) {s : List Char}
    (h : Covers ([separator].intercalate segs) s) :
    Reaches ((closeDepth (widen segs)).map String.ofList)
      ((splitOn separator s).map String.ofList) := by
  have hnames : ∀ s, (splitOn separator s).map String.ofList ≠ [] := by
    intro s
    simpa using splitOn_ne_nil separator s
  induction segs generalizing s with
  | nil => exact absurd rfl hne
  | cons a rest ih =>
      by_cases hwide : (hasDoubleStar a && decide (a ≠ anyDepth)) = true
      · -- A double star among other text admits everything.
        rw [widen, if_pos hwide]
        exact reaches_anything (hnames s)
      · rw [widen, if_neg hwide]
        have hafree := hfree a List.mem_cons_self
        by_cases hrest : rest = []
        · subst hrest
          rw [List.intercalate_singleton] at h
          by_cases hdepth : a = anyDepth
          · subst hdepth
            exact reaches_anything (hnames s)
          · -- A last segment of one level covers one name.
            have hdouble : hasDoubleStar a = false := by simpa [hdepth] using hwide
            have hclose : closeDepth (a :: widen []) = [a] := by
              rw [closeDepth, widen, if_neg (by simpa using hdepth)]
            rw [hclose, splitOn_of_not_mem (h.free hafree hdouble)]
            exact .of_covers h hdouble .nil
        · rw [List.intercalate_cons_of_ne_nil hrest, List.append_assoc, List.singleton_append] at h
          obtain ⟨s₁, s₂, rfl, h₁, h₂⟩ := h.split hafree
          have hrestfree := fun seg hseg => hfree seg (List.mem_cons_of_mem a hseg)
          rw [closeDepth_cons a (widen_ne_nil hrest), List.map_cons]
          by_cases hdepth : a = anyDepth
          · -- What stands for any depth may cover separators: it covers several names, or one.
            subst hdepth
            rw [splitOn_append, List.map_append]
            exact .skip _ (ih hrest hrestfree h₂)
          · have hdouble : hasDoubleStar a = false := by simpa [hdepth] using hwide
            rw [splitOn_append_cons (h₁.free hafree hdouble), List.map_cons]
            exact .of_covers h₁ hdouble (ih hrest hrestfree h₂)

theorem free_of_mem_widen {segs : List (List Char)} (h : ∀ seg ∈ segs, separator ∉ seg) :
    ∀ seg ∈ widen segs, separator ∉ seg := by
  induction segs with
  | nil => simp [widen]
  | cons a rest ih =>
      rw [widen]
      split
      · simp only [List.mem_cons, List.not_mem_nil, or_false]
        rintro seg (rfl | rfl) <;> decide
      · intro seg hseg
        rcases List.mem_cons.1 hseg with rfl | hseg
        · exact h _ List.mem_cons_self
        · exact ih (fun seg hseg => h seg (List.mem_cons_of_mem _ hseg)) seg hseg

theorem free_of_mem_walkable {t seg : List Char} (h : seg ∈ walkable t) : separator ∉ seg := by
  have hsegs : ∀ seg ∈ splitOn separator t, separator ∉ seg := fun _ => not_mem_of_mem_splitOn
  have hwiden := free_of_mem_widen hsegs
  rw [walkable, closeDepth] at h
  split at h
  · rcases List.mem_append.1 h with h | h
    · exact hwiden seg h
    · rw [List.mem_singleton.1 h]
      decide
  · exact hwiden seg h

theorem walkable_ne_nil (t : List Char) : walkable t ≠ [] := by
  rw [walkable, closeDepth]
  split
  · simp
  · exact widen_ne_nil (splitOn_ne_nil separator t)

/-- The segments of a template text in its walkable form. -/
theorem pieces_walkable (t : List Char) :
    pieces (String.ofList (joinSegments (walkable t))) = (walkable t).map String.ofList := by
  rw [pieces, Text.pieces, String.toList_ofList, joinSegments]
  exact congrArg _ (splitOn_intercalate (fun _ => free_of_mem_walkable) (walkable_ne_nil t))

theorem getLast?_walkable (t : List Char) : (walkable t).getLast? ≠ some anyDepth := by
  rw [walkable, closeDepth]
  split
  next => simp [anyDepth]
  next h => exact h

theorem eq_anyDepth_of_mem_widen {segs : List (List Char)} {seg : List Char}
    (h : seg ∈ widen segs) (hdouble : hasDoubleStar seg = true) : seg = anyDepth := by
  induction segs with
  | nil => cases h
  | cons a rest ih =>
      rw [widen] at h
      split at h
      next =>
          rcases List.mem_cons.1 h with rfl | h
          · rfl
          · rw [List.mem_singleton.1 h] at hdouble
            cases hdouble
      next hwide =>
          rcases List.mem_cons.1 h with rfl | h
          · simpa [hdouble] using hwide
          · exact ih h

/-- In its walkable form a template has two stars next to each other only as segments. -/
theorem eq_anyDepth_of_mem_walkable {t seg : List Char} (h : seg ∈ walkable t)
    (hdouble : hasDoubleStar seg = true) : seg = anyDepth := by
  rw [walkable, closeDepth] at h
  split at h
  next =>
      rcases List.mem_append.1 h with h | h
      · exact eq_anyDepth_of_mem_widen h hdouble
      · rw [List.mem_singleton.1 h] at hdouble
        cases hdouble
  next => exact eq_anyDepth_of_mem_widen h hdouble

/-- **No text is lost on the way from a template to a walk.** -/
theorem reaches_walkable {t s : List Char} (h : Covers t s) :
    Reaches (pieces (String.ofList (joinSegments (walkable t))))
      ((splitOn separator s).map String.ofList) := by
  rw [pieces_walkable]
  refine reaches_segments (splitOn_ne_nil separator t) (fun _ => not_mem_of_mem_splitOn) ?_
  rw [intercalate_splitOn]
  exact h

/-! ## Templates -/

section Distinct

variable {α : Type} [BEq α] [LawfulBEq α]

theorem mem_foldl_distinct {xs acc : List α} {a : α} :
    a ∈ xs.foldl (fun acc x => if acc.contains x then acc else acc ++ [x]) acc ↔
      a ∈ acc ∨ a ∈ xs := by
  induction xs generalizing acc with
  | nil => simp
  | cons x xs ih =>
      rw [List.foldl_cons, ih]
      split
      next hx =>
          have hx : x ∈ acc := by simpa using hx
          grind
      next => grind

theorem mem_distinct {xs : List α} {a : α} : a ∈ distinct xs ↔ a ∈ xs := by
  rw [distinct, mem_foldl_distinct]
  simp

theorem nodup_distinct (xs : List α) : (distinct xs).Nodup := by
  have hfold : ∀ acc : List α, acc.Nodup →
      (xs.foldl (fun acc x => if acc.contains x then acc else acc ++ [x]) acc).Nodup := by
    induction xs with
    | nil => exact fun acc h => h
    | cons x xs ih =>
        intro acc h
        rw [List.foldl_cons]
        apply ih
        split
        next => exact h
        next hx =>
            have hx : x ∉ acc := by simpa using hx
            exact List.nodup_append.2 ⟨h, List.nodup_singleton x, by grind⟩
  exact hfold [] .nil

theorem distinct_concat_of_mem {xs : List α} {x : α} (h : x ∈ xs) :
    distinct (xs ++ [x]) = distinct xs := by
  have hseen : (distinct xs).contains x = true := by simpa using mem_distinct.2 h
  rw [distinct, List.foldl_append]
  exact if_pos hseen

theorem distinct_concat_of_not_mem {xs : List α} {x : α} (h : x ∉ xs) :
    distinct (xs ++ [x]) = distinct xs ++ [x] := by
  have hnew : ¬ (distinct xs).contains x = true := by simpa using fun hx => h (mem_distinct.1 hx)
  rw [distinct, List.foldl_append]
  exact if_neg hnew

/-- Distinct elements stand in the order of their first appearances. -/
theorem pairwise_distinct (xs : List α) :
    (distinct xs).Pairwise fun a b => xs.idxOf a < xs.idxOf b := by
  induction xs using List.reverseRecOn with
  | nil => exact .nil
  | append_singleton xs x ih =>
      have hfirst : (distinct xs).Pairwise fun a b =>
          (xs ++ [x]).idxOf a < (xs ++ [x]).idxOf b := by
        refine ih.imp_of_mem fun ha hb hab => ?_
        rwa [List.idxOf_append_of_mem (mem_distinct.1 ha),
          List.idxOf_append_of_mem (mem_distinct.1 hb)]
      by_cases hx : x ∈ xs
      · rwa [distinct_concat_of_mem hx]
      · rw [distinct_concat_of_not_mem hx]
        refine List.pairwise_append.2 ⟨hfirst, List.pairwise_singleton _ _, fun a ha b hb => ?_⟩
        rw [List.mem_singleton.1 hb, List.idxOf_append_of_mem (mem_distinct.1 ha),
          List.idxOf_append_of_notMem hx]
        exact Nat.lt_add_right _ (List.idxOf_lt_length_of_mem (mem_distinct.1 ha))

theorem distinct_isPrefix {xs ys : List α} (h : xs <+: ys) : distinct xs <+: distinct ys := by
  obtain ⟨more, rfl⟩ := h
  induction more using List.reverseRecOn with
  | nil => rw [List.append_nil]
  | append_singleton more x ih =>
      rw [← List.append_assoc]
      by_cases hx : x ∈ xs ++ more
      · rwa [distinct_concat_of_mem hx]
      · rw [distinct_concat_of_not_mem hx]
        exact ih.trans (List.prefix_append _ _)

end Distinct

theorem covers_fold {t v : List Char} (h : Covers t v) (fold : Fold) :
    Covers (foldedChars fold t) (fold.wrap v) := by
  have hsep : Covers [separator] [separator] := .char Covers.separator_not_magic .nil
  cases fold with
  | none => exact h
  | before => exact hsep.append h
  | after => exact h.append hsep

theorem covers_star {v : List Char} (h : separator ∉ v) : Covers ['*'] v := by
  have hstar : Covers ['*'] (v ++ []) := .star h .nil
  rwa [List.append_nil] at hstar

/-- One of the choices that a part leaves covers what the part was given. -/
theorem exists_choice {values : Assoc String Value} {part : Part} {c : Choice}
    (hproper : part.Proper) (hfits : part.Fits c) (hclean : part.isClean c = true)
    (hpinned : ∀ q fold v, part = .param q fold → pinnedValue? values q.name = some v →
      c = some v.toList) :
    ∃ t ∈ (choices values part).1, Covers t (part.text c) := by
  cases hproper with
  | literal text => exact ⟨_, List.mem_singleton_self _, .escapeWildcards _⟩
  | param q fold hfold hread =>
      rw [choices]
      cases hvalue : pinnedValue? values q.name with
      | some v =>
          rw [hpinned q fold v rfl hvalue]
          exact ⟨_, List.mem_singleton_self _, covers_fold (.escapeWildcards _) fold⟩
      | none =>
          -- Only an optional parameter takes a separator along; the others have a star alone.
          have hunfolded : ¬ q.kind.isOptional = true → fold = .none :=
            Decidable.not_imp_symm hfold
          cases c with
          | none =>
              have hoptional : q.kind.isOptional = true := hfits
              cases hkind : q.kind with
              | optional => exact ⟨[], List.mem_cons_self, .nil⟩
              | _ =>
                  rw [hkind] at hoptional
                  cases hoptional
          | some v =>
              cases hkind : q.kind with
              | optional =>
                  rw [Part.Fits, hkind] at hfits
                  exact ⟨_, List.mem_cons_of_mem _ (List.mem_singleton_self _),
                    covers_fold (covers_star hfits.2) fold⟩
              | splat =>
                  rw [hunfolded (by rw [hkind]; exact Bool.false_ne_true)]
                  refine ⟨_, List.mem_singleton_self _, ?_⟩
                  have hrest : Covers ['*', '*'] (v ++ []) := .rest v .nil
                  rwa [List.append_nil] at hrest
              | required =>
                  rw [Part.Fits, hkind] at hfits
                  rw [hunfolded (by rw [hkind]; exact Bool.false_ne_true)]
                  exact ⟨_, List.mem_singleton_self _, covers_star hfits.2⟩
              | constrained c =>
                  have hfree : separator ∉ v := by
                    rw [Part.isClean, hkind] at hclean
                    simp [Kind.constraint?] at hclean
                    exact hclean.2
                  rw [hunfolded (by rw [hkind]; exact Bool.false_ne_true)]
                  exact ⟨_, List.mem_singleton_self _, covers_star hfree⟩

theorem exists_combination {values : Assoc String Value} {parts : List Part} {d : Part → Choice}
    (h : ∀ part ∈ parts, ∃ t ∈ (choices values part).1, Covers t (part.text (d part))) :
    ∃ t ∈ combinations ((parts.map (choices values)).map Prod.fst), Covers t (textOf parts d) := by
  induction parts with
  | nil => exact ⟨[], List.mem_singleton_self _, .nil⟩
  | cons part rest ih =>
      obtain ⟨t, ht, hcovers⟩ := h part List.mem_cons_self
      obtain ⟨t', ht', hcovers'⟩ := ih fun other hother => h other (List.mem_cons_of_mem _ hother)
      refine ⟨t ++ t', ?_, hcovers.append hcovers'⟩
      exact List.mem_flatMap.2 ⟨t, ht, List.mem_map.2 ⟨t', ht', rfl⟩⟩

theorem mem_alternatives {p : Pattern} {values : Assoc String Value} {a : String} :
    a ∈ (p.template values).alternatives ↔
      ∃ t ∈ combinations ((p.parts.map (choices values)).map Prod.fst),
        a = String.ofList (joinSegments (walkable t)) := by
  simp only [template, List.mem_map, mem_distinct]
  grind

theorem getLast?_pieces_alternative {p : Pattern} {values : Assoc String Value} {a : String}
    (ha : a ∈ (p.template values).alternatives) : (pieces a).getLast? ≠ some "**" := by
  obtain ⟨t, -, rfl⟩ := mem_alternatives.1 ha
  rw [pieces_walkable, List.getLast?_map]
  intro h
  obtain ⟨seg, hseg, h⟩ := Option.map_eq_some_iff.1 h
  have hdepth : seg = anyDepth := String.ofList_injective h
  exact getLast?_walkable t (hdepth ▸ hseg)

theorem eq_of_mem_pieces_alternative {p : Pattern} {values : Assoc String Value} {a seg : String}
    (ha : a ∈ (p.template values).alternatives) (hseg : seg ∈ pieces a)
    (hdouble : ['*', '*'] <:+: seg.toList) : seg = "**" := by
  obtain ⟨t, -, rfl⟩ := mem_alternatives.1 ha
  rw [pieces_walkable] at hseg
  obtain ⟨chars, hchars, rfl⟩ := List.mem_map.1 hseg
  rw [String.toList_ofList] at hdouble
  rw [eq_anyDepth_of_mem_walkable hchars (hasDoubleStar_of_isInfix hdouble)]
  rfl

theorem ofText_eq_anyDepth {seg : String} (h : Segment.ofText seg = .anyDepth) : seg = "**" := by
  rw [Segment.ofText] at h
  split at h
  next hseg => exact hseg
  next => split at h <;> cases h

/-- A walk goes by the pieces that are not empty: where the last piece is one of them, the walk does
not end in any depth. -/
theorem getLast?_ofPattern_alternative {p : Pattern} {values : Assoc String Value} {a : String}
    (ha : a ∈ (p.template values).alternatives) (hend : a.toList.getLast? ≠ some separator) :
    (Segment.ofPattern (pieces a)).getLast? ≠ some .anyDepth := by
  intro hdepth
  by_cases hempty : (pieces a).getLast? = some ""
  · have hsplit : (splitOn separator a.toList).getLast? = some [] := by
      rw [pieces, Text.pieces, List.getLast?_map] at hempty
      obtain ⟨seg, hseg, hnil⟩ := Option.map_eq_some_iff.1 hempty
      have hnil : seg = [] := String.ofList_injective hnil
      exact hnil ▸ hseg
    rcases getLast?_of_getLast?_splitOn hsplit with ha | hlast
    · rw [pieces, Text.pieces, ha] at hdepth
      cases hdepth
    · exact hend hlast
  · cases hlast : (pieces a).getLast? with
    | none =>
        rw [List.getLast?_eq_none_iff.1 hlast] at hdepth
        cases hdepth
    | some seg =>
        have hseg : seg ≠ "" := fun h => hempty (h ▸ hlast)
        rw [← List.dropLast_append_getLast? seg hlast, Segment.ofPattern, List.filter_append,
          List.filter_cons_of_pos (by simpa using hseg), List.filter_nil, List.map_append,
          List.map_singleton, List.getLast?_concat, Option.some_inj] at hdepth
        exact getLast?_pieces_alternative ha (ofText_eq_anyDepth hdepth ▸ hlast)

section Tilings

variable {p : Pattern} {values : Assoc String Value} {d : Part → Choice}
  (hproper : ∀ part ∈ p.parts, part.Proper) (hfits : ∀ part ∈ p.parts, part.Fits (d part))
  (hclean : ∀ part ∈ p.parts, part.isClean (d part) = true)
  (hpinned : ∀ q fold v, .param q fold ∈ p.parts → pinnedValue? values q.name = some v →
    d (.param q fold) = some v.toList)

include hproper hfits hclean hpinned

/-- **Every tiling of a path by the parts of a pattern is reached by some alternative of the
template**, if it gives the parameters with known values these values. -/
theorem exists_reaching : ∃ a ∈ (p.template values).alternatives,
    Reaches (pieces a) ((splitOn separator (textOf p.parts d)).map String.ofList) := by
  have hparts : ∀ part ∈ p.parts, ∃ t ∈ (choices values part).1, Covers t (part.text (d part)) := by
    intro part hpart
    refine exists_choice (hproper part hpart) (hfits part hpart) (hclean part hpart) ?_
    rintro q fold v rfl
    exact hpinned q fold v hpart
  obtain ⟨t, ht, hcovers⟩ := exists_combination hparts
  exact ⟨_, mem_alternatives.2 ⟨t, ht, rfl⟩, reaches_walkable hcovers⟩

/-- A walk along the segments of some alternative finds the path, if none of its names is empty. -/
theorem exists_alternative (hs : [] ∉ splitOn separator (textOf p.parts d)) :
    ∃ a ∈ (p.template values).alternatives, Fits (Segment.ofPattern (pieces a))
      ((splitOn separator (textOf p.parts d)).map String.ofList) := by
  obtain ⟨a, ha, h⟩ := exists_reaching hproper hfits hclean hpinned
  refine ⟨a, ha, h.fits (pieces_ne_nil a) (getLast?_pieces_alternative ha) ?_⟩
  · intro hmem
    obtain ⟨name, hname, hempty⟩ := List.mem_map.1 hmem
    have hnil : name = [] := String.ofList_injective hempty
    exact hs (hnil ▸ hname)

end Tilings

section Compiled

variable {p : Pattern} {params : Assoc String String} {values : Assoc String Value}

theorem exists_of_pinnedValue?_eq_some {name text : String}
    (h : pinnedValue? values name = some text) :
    ∃ v, values.get? name = some v ∧ v ≠ .null ∧ text = v.plain := by
  rw [pinnedValue?] at h
  split at h
  next => cases h
  next => cases h
  next v hnull hget => exact ⟨v, hget, hnull, (Option.some.inj h).symm⟩

/-- A path is tiled with the known values, if these are the ones that it has. -/
theorem exists_tiling_of_known {tokens : List Token} {nodes : List Regex.Node} {scope : Regex.Scope}
    {id : String} (hmade : Made p tokens nodes scope) (hparams : p.extract id = .ok (some params))
    (hknown : ∀ q ∈ p.params, ∀ text, pinnedValue? values q.name = some text →
      params.get? q.name = some text) :
    ∃ d : Part → Choice, (∀ part ∈ p.parts, part.Fits (d part)) ∧
      (∀ part ∈ p.parts, part.isClean (d part) = true) ∧ textOf p.parts d = id.toList ∧
      ∀ q fold v, .param q fold ∈ p.parts → pinnedValue? values q.name = some v →
        d (.param q fold) = some v.toList := by
  obtain ⟨d, hfits, hclean, htext, rfl⟩ := hmade.exists_tiling hparams
  refine ⟨d, hfits, hclean, htext, fun q fold v hq hv => ?_⟩
  have hget := hknown q (hmade.mem_params hq) v hv
  rw [get?_valuesOf d (hmade.filterMap_param? ▸ hmade.nodup_names) hq] at hget
  obtain ⟨w, hw, rfl⟩ := Option.map_eq_some_iff.1 hget
  rw [hw, String.toList_ofList]

/-- **A template covers its pattern**: every path that fits the pattern is reached, segment by
segment, by an alternative of the template under values that the path has, and if none of its names
is empty, a walk along this alternative finds it. Two stars stand next to each other only as a
segment of their own, and this is the last one of a walk only where the alternative ends in a
separator. -/
theorem template_covers {source : String} (hp : compile source = .ok p) :
    (∀ id params values, p.extract id = .ok (some params) →
      (∀ q ∈ p.params, ∀ v, values.get? q.name = some v → v ≠ .null →
        params.get? q.name = some v.plain) →
      ∃ a ∈ (p.template values).alternatives, Reaches (pieces a) (pieces id) ∧
        ("" ∉ pieces id → Fits (Segment.ofPattern (pieces a)) (pieces id))) ∧
    (∀ values, ∀ a ∈ (p.template values).alternatives,
      (a.toList.getLast? ≠ some separator →
        (Segment.ofPattern (pieces a)).getLast? ≠ some .anyDepth) ∧
      ∀ seg ∈ pieces a, ['*', '*'] <:+: seg.toList → seg = "**") := by
  obtain ⟨-, tokens, nodes, scope, hmade⟩ := made_of_compile hp
  constructor
  · intro id params values hparams hknown
    obtain ⟨d, hfits, hclean, htext, hpinned⟩ := exists_tiling_of_known hmade hparams <| by
      intro q hq text htext
      obtain ⟨v, hget, hnull, rfl⟩ := exists_of_pinnedValue?_eq_some htext
      exact hknown q hq v hget hnull
    obtain ⟨a, ha, hreaches⟩ := exists_reaching hmade.proper hfits hclean hpinned
    rw [htext] at hreaches
    exact ⟨a, ha, hreaches,
      hreaches.fits (pieces_ne_nil a) (getLast?_pieces_alternative ha)⟩
  · intro values a ha
    constructor
    · exact getLast?_ofPattern_alternative ha
    · intro seg hseg hdouble
      exact eq_of_mem_pieces_alternative ha hseg hdouble

/-- A note in a directory at some depth, without a language; its year and its name, which has a star
in it, are known. -/
theorem template_covers_note :
    let known : Assoc String Value := [("year", .int 2024), ("slug", .text "x*"), ("lang", .null)]
    let params := [("dirs", "a/b"), ("year", "2024"), ("slug", "x*")]
    ∃ p, compile "\x7b...dirs\x7d/\x7b?lang\x7d/\x7byear\x7d-\x7bslug\x7d.md" = .ok p ∧
      p.extract "a/b/2024-x*.md" = .ok (some params) ∧
      (∀ q ∈ p.params, ∀ v, Assoc.get? q.name known = some v → v ≠ .null →
        Assoc.get? q.name params = some v.plain) ∧
      (p.template known).alternatives = ["**/2024-x[*].md", "**/*/2024-x[*].md"] ∧
      (∃ a ∈ (p.template known).alternatives, Reaches (pieces a) (pieces "a/b/2024-x*.md") ∧
        ("" ∉ pieces "a/b/2024-x*.md" →
          Fits (Segment.ofPattern (pieces a)) (pieces "a/b/2024-x*.md"))) ∧
      ∀ a ∈ (p.template known).alternatives,
        (a.toList.getLast? ≠ some separator →
          (Segment.ofPattern (pieces a)).getLast? ≠ some .anyDepth) ∧
        ∀ seg ∈ pieces a, ['*', '*'] <:+: seg.toList → seg = "**" := by
  intro known params
  have hfacts : (compile "\x7b...dirs\x7d/\x7b?lang\x7d/\x7byear\x7d-\x7bslug\x7d.md").toOption.map
      (fun p => ((p.template known).alternatives, (p.extract "a/b/2024-x*.md").toOption)) =
      some (["**/2024-x[*].md", "**/*/2024-x[*].md"], some (some params)) := by decide +kernel
  obtain ⟨p, hp, hfacts⟩ := exists_ok_of_toOption_map hfacts
  obtain ⟨halternatives, hextract⟩ := Prod.mk.inj hfacts
  have hextract := eq_ok_of_toOption hextract
  have hknown : ∀ q ∈ p.params, ∀ v, Assoc.get? q.name known = some v → v ≠ .null →
      Assoc.get? q.name params = some v.plain := by
    intro q _ v hv hnull
    have hmem := Assoc.mem_of_get?_eq_some hv
    simp only [known, List.mem_cons, Prod.mk.injEq, List.not_mem_nil, or_false] at hmem
    rcases hmem with ⟨hname, rfl⟩ | ⟨hname, rfl⟩ | ⟨-, rfl⟩
    · rw [hname]
      cbv
    · rw [hname]
      cbv
    · exact absurd rfl hnull
  obtain ⟨hcovers, hends⟩ := template_covers hp
  exact ⟨p, hp, hextract, hknown, halternatives, hcovers _ _ known hextract hknown, hends known⟩

/-- A last parameter whose known value is empty leaves the separator before it at the end, where a
walk has any depth as its last segment. -/
theorem template_ends_in_any_depth :
    let source := "\x7b...x\x7d/\x7ba\x7d"
    source.toList.getLast? ≠ some separator ∧ ∃ p, compile source = .ok p ∧
      ∃ a ∈ (p.template [("a", .text "")]).alternatives,
        a = "**/" ∧ Segment.ofPattern (pieces a) = [.anyDepth] := by
  intro source
  have hfacts : (compile source).toOption.map
      (fun p => (p.template [("a", .text "")]).alternatives) = some ["**/"] := by decide +kernel
  obtain ⟨p, hp, hfacts⟩ := exists_ok_of_toOption_map hfacts
  refine ⟨by decide, p, hp, "**/", ?_, rfl, by decide +kernel⟩
  rw [hfacts]
  exact List.mem_singleton_self _

end Compiled

end Winnow.Files
