import Winnow.Proofs.Pattern.Acceptance
import Winnow.Proofs.Pattern.Placing

/-!
# Folded separators

An optional parameter that is absent takes a separator along, so that no separator is left behind
twice. The layout brings this about by moving separators into the parameters. Here it is said
without the layout, by the text of the pattern and the places of its placeholders alone: building
with all values fills in the placeholders, and building without some of the optional ones deletes
from this text their values, each with the separator next to it that is theirs
(`build_eq_without`).

Which separator this is, is told by the text of the pattern as well: the one in front of the
placeholder if no other optional parameter takes it along, or else the one behind it
(`side_eq_before_iff`, `side_eq_after_iff`). That none is overlooked is a property of neighbours in
a layout (`isChain_layout`).
-/

namespace Winnow.Pattern

section Layout

variable {tokens : List Token}

/-! ## No separator is overlooked -/

/-- What the layout promises of neighbours: where an optional parameter has taken no separator, none
was left for it, on neither side; and if it took the one behind it, none was left in front. -/
def Settled : Part → Part → Prop
  | .literal text, .param q fold =>
    q.kind.isOptional = true → fold ≠ .before → text.toList.getLast? ≠ some separator
  | .param q fold, .literal text =>
    q.kind.isOptional = true → fold = .none → text.toList.head? ≠ some separator
  | .param q fold, .param _ fold' => q.kind.isOptional = true → fold = .none → fold' ≠ .before
  | .literal _, .literal _ => True

theorem settled_param {q : Param} {fold : Fold} (h : q.kind.isOptional = true → fold ≠ .none)
    (part : Part) : Settled (.param q fold) part := by
  cases part with
  | literal text => exact fun hoptional hfold => absurd hfold (h hoptional)
  | param r fold' => exact fun hoptional hfold => absurd hfold (h hoptional)

/-- A parameter that comes first finds no separator in front of it. -/
theorem exists_layout_param (q : Param) (rest : List Token) :
    ∃ fold parts, layout (.param q :: rest) = .param q fold :: parts ∧ fold ≠ .before := by
  rw [layout.eq_def]
  split
  next he => cases he
  next he => cases he
  next he => cases he
  next he =>
    cases he
    split
    · split
      · exact ⟨.after, _, rfl, by decide⟩
      · exact ⟨.none, _, rfl, by decide⟩
    · exact ⟨.none, _, rfl, by decide⟩
  next he =>
    cases he
    exact ⟨.none, _, rfl, by decide⟩

/-- A text that opens with no separator loses nothing in front. -/
theorem exists_layout_literal {text : String} {c : Char} {cs : List Char}
    (htext : text.toList = c :: cs) (hc : c ≠ separator) (rest : List Token) :
    ∃ t parts, layout (.literal text :: rest) = .literal t :: parts ∧
      t.toList.head? = some c := by
  rw [layout.eq_def]
  split
  next he => cases he
  next he =>
    cases he
    split
    next text' hdrop _ =>
      rw [htext, dropSeparator?_eq_some_iff] at hdrop
      cases text' with
      | nil => exact absurd (List.cons.inj hdrop).1 hc
      | cons d text' =>
          obtain rfl := (List.cons.inj hdrop).1
          exact ⟨_, _, rfl, by simp⟩
    next => exact ⟨_, _, by rw [htext]; rfl, by simp⟩
  next he =>
    cases he
    exact ⟨_, _, by rw [htext]; rfl, by simp⟩
  next he => cases he
  next he => cases he

theorem isChain_literalPart_append {text : List Char} {parts : List Part}
    (hnext : ∀ part ∈ parts.head?, Settled (.literal (String.ofList text)) part)
    (h : parts.IsChain Settled) : (literalPart text ++ parts).IsChain Settled := by
  cases text with
  | nil => exact h
  | cons c text => exact List.isChain_cons.2 ⟨hnext, h⟩

/-- **Neighbours in a layout are settled**, for tokens as they are read from a pattern: literals do
not follow each other and are not empty. The first one may be what an optional parameter has left
of its literal. -/
theorem isChain_layout
    (hapart : tokens.IsChain fun t u => ¬ (t.isLiteral = true ∧ u.isLiteral = true))
    (hne : ∀ text, .literal text ∈ tokens.tail → text ≠ "") :
    (layout tokens).IsChain Settled := by
  fun_induction layout tokens with
  | case1 => exact .nil
  | case2 text q rest text' _ hdrop ih =>
      -- Here the separator in front is taken.
      have hrest := ih hapart.tail.tail fun t ht =>
        hne t (List.mem_cons_of_mem _ (List.mem_of_mem_tail ht))
      refine isChain_literalPart_append ?_ ?_
      · rintro part ⟨⟩
        exact fun _ hfold => absurd rfl hfold
      · exact List.isChain_cons.2 ⟨fun part _ => settled_param (by simp) part, hrest⟩
  | case3 text q rest hkept ih =>
      have hrest := ih hapart.tail fun t ht => hne t (List.mem_cons_of_mem _ ht)
      refine isChain_literalPart_append ?_ hrest
      obtain ⟨fold, parts, hlayout, -⟩ := exists_layout_param q rest
      rw [hlayout]
      rintro part ⟨⟩ hoptional - hlast
      rw [String.toList_ofList] at hlast
      exact hkept _ (dropSeparator?_eq_some_iff.2
        (List.dropLast_append_getLast? _ hlast).symm) hoptional
  | case4 text rest hparam ih =>
      cases rest with
      | nil => exact isChain_literalPart_append (by simp [layout]) (by simp [layout])
      | cons t rest =>
          cases t with
          | literal t => exact absurd ⟨rfl, rfl⟩ (List.isChain_cons_cons.1 hapart).1
          | param q => exact absurd rfl (hparam q rest)
  | case5 q text rest text' _ htext ih =>
      -- Here the separator behind is taken, and the rest of its literal comes first in what is left.
      have hrest := ih (List.isChain_cons.2 (List.isChain_cons.1 hapart.tail)) fun t ht =>
        hne t (List.mem_cons_of_mem _ ht)
      exact List.isChain_cons.2 ⟨fun part _ => settled_param (by simp) part, hrest⟩
  | case6 q text rest c cs htext hoptional hc ih =>
      have hrest := ih hapart.tail fun t ht => hne t (List.mem_cons_of_mem _ ht)
      obtain ⟨t, parts, hlayout, hhead⟩ := exists_layout_literal htext hc rest
      rw [hlayout] at hrest ⊢
      refine List.isChain_cons.2 ⟨?_, hrest⟩
      rintro part ⟨⟩ - - hsep
      rw [hhead] at hsep
      exact hc (Option.some.inj hsep)
  | case7 q text rest hkept ih =>
      have hrest := ih hapart.tail fun t ht => hne t (List.mem_cons_of_mem _ ht)
      have hrequired : ¬ q.kind.isOptional = true := by
        intro hoptional
        cases htext : text.toList with
        | nil => exact hne text List.mem_cons_self (String.toList_eq_nil_iff.1 htext)
        | cons c cs => exact hkept c cs hoptional htext
      exact List.isChain_cons.2
        ⟨fun part _ => settled_param (fun hoptional => absurd hoptional hrequired) part, hrest⟩
  | case8 q rest hliteral ih =>
      have hrest := ih hapart.tail fun t ht => hne t (List.mem_of_mem_tail ht)
      refine List.isChain_cons.2 ⟨?_, hrest⟩
      cases rest with
      | nil => simp [layout]
      | cons t rest =>
          cases t with
          | literal text => exact absurd rfl (hliteral text rest)
          | param r =>
              obtain ⟨fold, parts, hlayout, hfold⟩ := exists_layout_param r rest
              rw [hlayout]
              rintro part ⟨⟩ - -
              exact hfold

theorem toList_ne_nil_of_mem_literalPart {text : String} {t : List Char}
    (h : .literal text ∈ literalPart t) : text.toList ≠ [] := by
  cases t with
  | nil => cases h
  | cons c t =>
      cases List.mem_singleton.1 h
      simp

/-- No literal of a layout is empty. -/
theorem toList_ne_nil_of_mem_layout {text : String} (h : .literal text ∈ layout tokens) :
    text.toList ≠ [] := by
  fun_induction layout tokens with
  | case1 => cases h
  | case2 _ _ _ _ _ _ ih =>
      rcases List.mem_append.1 h with h | h
      · exact toList_ne_nil_of_mem_literalPart h
      · exact ih (by simpa using h)
  | case3 _ _ _ _ ih =>
      rcases List.mem_append.1 h with h | h
      · exact toList_ne_nil_of_mem_literalPart h
      · exact ih h
  | case4 _ _ _ ih =>
      rcases List.mem_append.1 h with h | h
      · exact toList_ne_nil_of_mem_literalPart h
      · exact ih h
  | case5 _ _ _ _ _ _ ih => exact ih (by simpa using h)
  | case6 _ _ _ _ _ _ _ _ ih => exact ih (by simpa using h)
  | case7 _ _ _ _ ih => exact ih (by simpa using h)
  | case8 _ _ _ ih => exact ih (by simpa using h)

end Layout

/-! ## Which separator is taken -/

/-- Whether a separator stands in front of `q`, which covers `s`, and no other optional parameter
takes it along. -/
def FreeBefore (side : Param → Fold) (spots : List (Param × Stretch)) (text : List Char) (q : Param)
    (s : Stretch) : Prop :=
  ∃ i, s.start = i + 1 ∧ text[i]? = some separator ∧
    ∀ r t, (r, t) ∈ spots → r.kind.isOptional = true → r ≠ q → i ∉ (side r).widen t

theorem head?_written (q : Param) : q.written.head? = some '\x7b' := by
  rw [Param.written, toList_render_param]
  rfl

theorem getLast?_written (q : Param) : q.written.getLast? = some '\x7d' := by
  rw [Param.written, toList_render_param, List.getLast?_concat]

/-- What a layout is like whose separators are folded to the sides that `side` says. -/
structure Folded (side : Param → Fold) (parts : List Part) : Prop where
  tells : Tells side parts
  optional : ∀ q fold, .param q fold ∈ parts → fold ≠ .none → q.kind.isOptional = true
  distinct : (parts.filterMap Part.param?).Nodup
  literals : ∀ text, .literal text ∈ parts → text.toList ≠ []
  settled : parts.IsChain Settled

section Sides

variable {parts front rest : List Part} {q : Param} {fold : Fold} {s : Stretch}
  {side : Param → Fold}

/-- A separator that an optional parameter leaves in front of its placeholder was taken by the
parameter before. -/
theorem exists_after_of_getLast? (h : Folded side (front ++ .param q fold :: rest))
    (hoptional : q.kind.isOptional = true) (hbefore : fold ≠ .before)
    (hlast : (fullText Param.written front).getLast? = some separator) :
    ∃ front' r, front = front' ++ [.param r .after] := by
  rcases List.eq_nil_or_concat' front with rfl | ⟨front', part, rfl⟩
  · cases hlast
  · have hsettled := h.settled
    rw [List.append_assoc, List.singleton_append] at hsettled
    have hneighbours := (List.isChain_append_cons_cons.1 hsettled).2.1
    rw [fullText_append] at hlast
    cases part with
    | literal text =>
        have htext := h.literals text (by simp)
        rw [fullText_literal, fullText_nil, List.append_nil,
          List.getLast?_append_of_ne_nil _ htext] at hlast
        exact absurd hlast (hneighbours hoptional hbefore)
    | param r fold' =>
        cases fold' with
        | after => exact ⟨front', r, rfl⟩
        | none => simp [Fold.wrap, getLast?_written, separator] at hlast
        | before => simp [Fold.wrap, getLast?_written, separator, List.getLast?_cons] at hlast

/-- An optional parameter that takes no separator finds none behind its placeholder. -/
theorem head?_ne_separator (h : Folded side (front ++ .param q .none :: rest))
    (hoptional : q.kind.isOptional = true) :
    (fullText Param.written rest).head? ≠ some separator := by
  cases rest with
  | nil => nofun
  | cons part rest =>
      have hneighbours := (List.isChain_append_cons_cons.1 h.settled).2.1
      cases part with
      | literal text =>
          have htext := h.literals text (by simp)
          rw [fullText_literal, List.head?_append_of_ne_nil _ htext]
          exact hneighbours hoptional rfl
      | param r fold =>
          have hbefore := hneighbours hoptional rfl
          cases fold with
          | before => exact absurd rfl hbefore
          | _ => simp [Fold.wrap, head?_written, separator]

theorem freeBefore_of_side (h : Folded side parts)
    (hs : (q, s) ∈ spots Param.written 0 parts) (hq : side q = .before) :
    FreeBefore side (spots Param.written 0 parts) (fullText Param.written parts) q s := by
  have hborders := borders_fullText h.tells hs
  rw [hq] at hborders
  obtain ⟨i, hstart, hi⟩ := hborders
  refine ⟨i, hstart, hi, fun r t ht hr hne hmem => ?_⟩
  obtain ⟨-, -, -, -, -, -, hstop⟩ := exists_fullText_eq hs
  refine apart_of_mem_spots h.tells hs ht hne.symm i ?_ hmem
  rw [hq, Stretch.mem_iff]
  simp only [Fold.widen, Fold.ahead]
  omega

theorem side_of_freeBefore (h : Folded side parts) (hoptional : q.kind.isOptional = true)
    (hs : (q, s) ∈ spots Param.written 0 parts)
    (hfree : FreeBefore side (spots Param.written 0 parts) (fullText Param.written parts) q s) :
    side q = .before := by
  obtain ⟨front, fold, rest, rfl, htext, hstart, -⟩ := exists_fullText_eq hs
  obtain ⟨i, hi, hsep, hothers⟩ := hfree
  rw [h.tells q fold (by simp)]
  by_contra hbefore
  have hahead : fold.ahead = 0 := by
    cases fold with
    | before => exact absurd rfl hbefore
    | _ => rfl
  have hlast : (fullText Param.written front).getLast? = some separator := by
    rw [← hsep, htext, List.getElem?_append_left (by omega), List.getLast?_eq_getElem?]
    congr 1
    omega
  obtain ⟨front, r, rfl⟩ := exists_after_of_getLast? h hoptional hbefore hlast
  have hr : .param r .after ∈ front ++ [Part.param r .after] ++ .param q fold :: rest := by simp
  have hne : r ≠ q := by
    have hdistinct := h.distinct
    rintro rfl
    simp [Part.param?, List.nodup_append] at hdistinct
  refine hothers r ⟨(fullText Param.written front).length,
    (fullText Param.written front).length + r.written.length⟩ ?_ (h.optional r _ hr (by decide)) hne ?_
  · exact mem_spots_iff.2 ⟨front, .after, .param q fold :: rest, by simp, by simp [Fold.ahead], rfl⟩
  · rw [h.tells r _ hr, Stretch.mem_iff]
    rw [fullText_append, List.length_append, fullText_param, fullText_nil, List.append_nil,
      Fold.length_wrap_eq] at hstart
    simp only [Fold.widen, Fold.ahead, Fold.behind] at hstart ⊢
    omega

/-- **The separator in front is preferred.** -/
theorem side_eq_before_iff (h : Folded side parts) (hoptional : q.kind.isOptional = true)
    (hs : (q, s) ∈ spots Param.written 0 parts) : side q = .before ↔
      FreeBefore side (spots Param.written 0 parts) (fullText Param.written parts) q s :=
  ⟨freeBefore_of_side h hs, side_of_freeBefore h hoptional hs⟩

/-- **Otherwise it is the separator behind.** -/
theorem side_eq_after_iff (h : Folded side parts) (hoptional : q.kind.isOptional = true)
    (hs : (q, s) ∈ spots Param.written 0 parts) : side q = .after ↔
      ¬ FreeBefore side (spots Param.written 0 parts) (fullText Param.written parts) q s ∧
        (fullText Param.written parts)[s.stop]? = some separator := by
  rw [← side_eq_before_iff h hoptional hs]
  constructor
  · intro hq
    have hborders := borders_fullText h.tells hs
    rw [hq] at hborders ⊢
    exact ⟨nofun, hborders⟩
  · rintro ⟨hbefore, hbehind⟩
    obtain ⟨front, fold, rest, rfl, htext, hstart, hstop⟩ := exists_fullText_eq hs
    rw [h.tells q fold (by simp)] at hbefore ⊢
    cases fold with
    | before => exact absurd rfl hbefore
    | after => rfl
    | none =>
        refine absurd ?_ (head?_ne_separator h hoptional)
        rw [← hbehind, htext, hstop, hstart, Fold.wrap, ← List.append_assoc,
          List.getElem?_append_right (by simp [Fold.ahead]), List.head?_eq_getElem?]
        simp [Fold.ahead]

end Sides

/-! ## Patterns -/

/-- The separator that is folded into a parameter. -/
def foldOf (parts : List Part) (q : Param) : Fold :=
  (parts.findSome? fun
    | .literal _ => none
    | .param r fold => if r = q then some fold else none).getD .none

/-- The side on which a pattern has a parameter take a separator along. -/
def side (p : Pattern) (q : Param) : Fold := foldOf p.parts q

theorem foldOf_eq_of_mem {parts : List Part} (hdistinct : (parts.filterMap Part.param?).Nodup)
    {q : Param} {fold : Fold} (h : .param q fold ∈ parts) : foldOf parts q = fold := by
  induction parts with
  | nil => cases h
  | cons part parts ih =>
      cases part with
      | literal text =>
          rcases List.mem_cons.1 h with he | h
          · cases he
          · exact ih hdistinct h
      | param r f =>
          obtain ⟨hnew, hdistinct'⟩ := List.nodup_cons.1 hdistinct
          rcases List.mem_cons.1 h with he | h
          · cases he
            simp [foldOf]
          · have hne : r ≠ q := by
              rintro rfl
              exact hnew (List.mem_filterMap.2 ⟨_, h, rfl⟩)
            rw [← ih hdistinct' h]
            simp [foldOf, hne]

theorem Made.folded {p : Pattern} {tokens : List Token} {nodes : List Regex.Node}
    {s : Regex.Scope} (h : Made p tokens nodes s) : Folded p.side p.parts := by
  obtain ⟨hwellFormed, -⟩ := tokenize_eq_ok_iff.1 h.tokenized
  have hdistinct : (p.parts.filterMap Part.param?).Nodup := by
    rw [h.filterMap_param?]
    exact h.nodup_names.of_map
  refine ⟨fun q fold hq => foldOf_eq_of_mem hdistinct hq, fun q fold hq hfold => ?_, hdistinct,
    fun text htext => ?_, ?_⟩
  · cases h.proper _ hq with
    | param _ _ hoptional _ => exact hoptional hfold
  · exact toList_ne_nil_of_mem_layout (h.parts ▸ htext)
  · rw [h.parts]
    exact isChain_layout hwellFormed.apart fun text htext =>
      (hwellFormed.literals text (List.mem_of_mem_tail htext)).1

/-! ## Building without some values -/

/-- An optional parameter that has no value. -/
def Param.lost (values : Assoc String Value) (q : Param) : Bool :=
  q.kind.isOptional && isUnset q (values.get? q.name)

/-- What stands in the place of a parameter. -/
def Param.given (values : Assoc String Value) (q : Param) : List Char :=
  ((q.built? values).map String.toList).getD []

/-- Whether `values'` are `values` with some optional parameters unset. -/
def Unsets (p : Pattern) (values values' : Assoc String Value) : Prop :=
  ∀ q ∈ p.params, q.lost values' = true ∨ values'.get? q.name = values.get? q.name

theorem textOf_congr {parts : List Part} {d d' : Part → Choice}
    (h : ∀ part ∈ parts, d part = d' part) : textOf parts d = textOf parts d' := by
  rw [textOf, textOf]
  exact List.flatMap_congr fun part hpart => by rw [h part hpart]

theorem lost_iff {values : Assoc String Value} {q : Param} :
    q.lost values = true ↔ q.kind.isOptional = true ∧ isUnset q (values.get? q.name) = true :=
  Bool.and_eq_true_iff

/-- What has passed is there, unless its parameter has no value. -/
theorem built_eq_filled {p : Pattern} {values : Assoc String Value} {part : Part}
    (h : part.Passes p (part.built values)) :
    part.built values = part.filled (Param.given values) (Param.lost values) := by
  cases part with
  | literal text => rfl
  | param q fold =>
      rw [Part.filled]
      split
      next hlost =>
        obtain ⟨hoptional, hunset⟩ := lost_iff.1 hlost
        have hsplat : q.kind ≠ .splat := by
          intro hkind
          simp [hkind, Kind.isOptional] at hoptional
        rw [built_of_unset hunset, if_neg hsplat]
      next hlost =>
        cases hbuilt : q.built? values with
        | some v => rw [Part.built, Param.given, hbuilt, Option.map_some, Option.getD_some]
        | none =>
            rw [Part.built, hbuilt] at h
            have hset : isUnset q (values.get? q.name) = false :=
              (Bool.not_eq_true _).mp fun hunset => hlost (lost_iff.2 ⟨h, hunset⟩)
            cases hvalue : values.get? q.name with
            | none =>
                rw [hvalue] at hset
                cases hset
            | some v => simp [Param.built?, hvalue, hvalue ▸ hset] at hbuilt

theorem exists_buildParts_iff {p : Pattern} {values : Assoc String Value} {parts : List Part} :
    (∃ id, p.buildParts values parts = .ok id) ↔
      ∀ part ∈ parts, ∃ text, p.buildPart values part = .ok text := by
  induction parts with
  | nil => exact ⟨fun _ => by simp, fun _ => ⟨"", rfl⟩⟩
  | cons part parts ih =>
      rw [List.forall_mem_cons, ← ih]
      constructor
      · rintro ⟨id, h⟩
        obtain ⟨head, hhead, h⟩ := bind_eq_ok.1 h
        obtain ⟨tail, htail, -⟩ := bind_eq_ok.1 h
        exact ⟨⟨head, hhead⟩, tail, htail⟩
      · rintro ⟨⟨head, hhead⟩, tail, htail⟩
        exact ⟨_, bind_eq_ok.2 ⟨head, hhead, bind_eq_ok.2 ⟨tail, htail, rfl⟩⟩⟩

section Building

variable {p : Pattern} {tokens : List Token} {nodes : List Regex.Node} {s : Regex.Scope}
  {values values' : Assoc String Value} {id : String}

/-- Unsetting optional parameters is no reason to refuse anything. -/
theorem exists_build_of_unsets (h : Made p tokens nodes s) (hb : p.build values = .ok id)
    (hunsets : p.Unsets values values') : ∃ id', p.build values' = .ok id' := by
  refine exists_buildParts_iff.2 fun part hpart => ?_
  obtain ⟨text, htext⟩ := exists_buildParts_iff.1 ⟨id, hb⟩ part hpart
  cases part with
  | literal t => exact ⟨t, rfl⟩
  | param q fold =>
      rcases hunsets q (h.mem_params hpart) with hlost | hsame
      · obtain ⟨hoptional, hunset⟩ := lost_iff.1 hlost
        have hkind : q.kind = .optional := by
          cases hkind : q.kind <;> simp_all [Kind.isOptional]
        refine ⟨"", ?_⟩
        simp [buildPart, hunset, hkind]
      · exact ⟨text, by rwa [buildPart, hsame]⟩

/-- What is built is the text in which the values are filled in, without those that are lost. -/
theorem toList_eq_of_build (h : Made p tokens nodes s) (hb : p.build values = .ok id) :
    id.toList = textOf p.parts (Part.filled (Param.given values) (Param.lost values)) := by
  obtain ⟨hpasses, htext⟩ := passes_of_build h.proper hb
  rw [htext]
  exact textOf_congr fun part hpart => built_eq_filled (hpasses part hpart)

/-- **With all values** the placeholders are filled in. -/
theorem toList_eq_fill (h : Made p tokens nodes s) (hb : p.build values = .ok id)
    (hall : ∀ q ∈ p.params, q.lost values = false) :
    id.toList = fill (Param.given values) tokens := by
  rw [toList_eq_of_build h hb, ← fullText_layout, ← h.parts, fullText]
  refine textOf_congr fun part hpart => ?_
  cases part with
  | literal text => rfl
  | param q fold => rw [Part.filled, Part.filled, hall q (h.mem_params hpart)]

/-- **Without some of them** their values are cut out. -/
theorem toList_eq_without (h : Made p tokens nodes s) (hb : p.build values = .ok id)
    (hall : ∀ q ∈ p.params, q.lost values = false) (hunsets : p.Unsets values values')
    {id' : String} (hb' : p.build values' = .ok id') : id'.toList =
      without (cuts p.side (Param.lost values') (placed (Param.given values) 0 tokens)) 0
        id.toList := by
  have hkept : ∀ q ∈ p.params, q.lost values' = false → q.given values' = q.given values := by
    intro q hq hlost
    rcases hunsets q hq with hlost' | hsame
    · rw [hlost] at hlost'
      cases hlost'
    · rw [Param.given, Param.given, Param.built?, Param.built?, hsame]
  rw [toList_eq_of_build h hb', toList_eq_fill h hb hall, ← fullText_layout, ← spots_layout,
    ← h.parts, without_fullText h.folded.tells]
  refine textOf_congr fun part hpart => ?_
  cases part with
  | literal text => rfl
  | param q fold =>
      rw [Part.filled, Part.filled]
      split
      next => rfl
      next hlost => rw [hkept q (h.mem_params hpart) ((Bool.not_eq_true _).mp hlost)]

end Building

/-- **Folding separators neither loses nor duplicates one.** With a value for every optional
parameter, what is built is the text of the pattern with its placeholders replaced. Without some of
these values, it is that text less their stretches, each with the separator on the side that the
pattern has for the parameter. The stretches hold just the values, the separators are there, and no
two parameters share one. The side is told by the text of the pattern: in front, if a separator
stands there that no other optional parameter takes along, and else behind, if one stands there. -/
theorem build_eq_without {source : String} {p : Pattern} (h : compile source = .ok p) :
    ∃ tokens, tokenize source = .ok tokens ∧ fill Param.written tokens = source.toList ∧
      (∀ w, (placed w 0 tokens).map Prod.fst = p.params) ∧
      (∀ values full, p.build values = .ok full → (∀ q ∈ p.params, q.lost values = false) →
        full.toList = fill (Param.given values) tokens ∧
        (∀ q s, (q, s) ∈ placed (Param.given values) 0 tokens →
          s.cover full.toList = q.given values ∧ (p.side q).Borders full.toList s) ∧
        (cuts p.side (·.kind.isOptional) (placed (Param.given values) 0 tokens)).Pairwise
          Stretch.Apart ∧
        ∀ values', p.Unsets values values' → ∃ short, p.build values' = .ok short ∧
          short.toList = without
            (cuts p.side (Param.lost values') (placed (Param.given values) 0 tokens)) 0
            full.toList) ∧
      ∀ q s, (q, s) ∈ placed Param.written 0 tokens → q.kind.isOptional = true →
        (p.side q = .before ↔
          FreeBefore p.side (placed Param.written 0 tokens) source.toList q s) ∧
        (p.side q = .after ↔
          ¬ FreeBefore p.side (placed Param.written 0 tokens) source.toList q s ∧
            source.toList[s.stop]? = some separator) := by
  obtain ⟨hsource, tokens, nodes, scope, hmade⟩ := made_of_compile h
  have hfolded := hmade.folded
  have htokens := hmade.tokenized
  rw [hsource] at htokens
  have hwritten : fill Param.written tokens = source.toList := by
    rw [fill_written, (tokenize_eq_ok_iff.1 htokens).2]
  -- Laying out moves separators and no text, so what is told of tokens may be told of parts.
  have hspots : ∀ w, spots w 0 p.parts = placed w 0 tokens := by
    intro w
    rw [hmade.parts, spots_layout]
  have htext : ∀ w, fullText w p.parts = fill w tokens := by
    intro w
    rw [hmade.parts, fullText_layout]
  refine ⟨tokens, htokens, hwritten, fun w => ?_, ?_, ?_⟩
  · rw [map_fst_placed, hmade.params]
  · intro values full hb hall
    have hfull := toList_eq_fill hmade hb hall
    refine ⟨hfull, fun q s hs => ?_, ?_, fun values' hunsets => ?_⟩
    · rw [← hspots] at hs
      rw [hfull, ← htext]
      exact ⟨cover_fullText hs, borders_fullText hfolded.tells hs⟩
    · rw [← hspots]
      exact pairwise_apart_cuts hfolded.tells _
    · obtain ⟨short, hshort⟩ := exists_build_of_unsets hmade hb hunsets
      exact ⟨short, hshort, toList_eq_without hmade hb hall hunsets hshort⟩
  · intro q s hs hoptional
    rw [← hwritten, ← htext, ← hspots]
    rw [← hspots] at hs
    exact ⟨side_eq_before_iff hfolded hoptional hs, side_eq_after_iff hfolded hoptional hs⟩

/-- A date that may be absent takes the separator in front of it along. -/
theorem build_eq_without_date : ∃ p, compile "posts/\x7b?date\x7d/\x7bslug\x7d.md" = .ok p ∧
    p.build [("date", .text "2024"), ("slug", .text "x")] = .ok "posts/2024/x.md" ∧
    ∃ short, p.build [("slug", .text "x")] = .ok short ∧
      short.toList = without [⟨5, 10⟩] 0 "posts/2024/x.md".toList := by
  have htokens : (tokenize "posts/\x7b?date\x7d/\x7bslug\x7d.md").toOption =
      some [.literal "posts/", .param ⟨"date", .optional, 0⟩, .literal "/",
        .param ⟨"slug", .required, 1⟩, .literal ".md"] := by decide +kernel
  have hfacts : (compile "posts/\x7b?date\x7d/\x7bslug\x7d.md").toOption.map (fun p =>
      let values : Assoc String Value := [("date", .text "2024"), ("slug", .text "x")]
      let values' : Assoc String Value := [("slug", .text "x")]
      (p.params.all fun q => !q.lost values && (q.lost values' || q.name == "slug"),
        (p.build values).toOption,
        cuts p.side (Param.lost values') (placed (Param.given values) 0
          [.literal "posts/", .param ⟨"date", .optional, 0⟩, .literal "/",
            .param ⟨"slug", .required, 1⟩, .literal ".md"]))) =
      some (true, some "posts/2024/x.md", [⟨5, 10⟩]) := by decide +kernel
  obtain ⟨p, hp, hfacts⟩ := exists_ok_of_toOption_map hfacts
  simp only [Prod.mk.injEq, List.all_eq_true, Bool.and_eq_true, Bool.not_eq_true', Bool.or_eq_true,
    beq_iff_eq] at hfacts
  obtain ⟨hvalues, hbuild, hcuts⟩ := hfacts
  have hb := eq_ok_of_toOption hbuild
  obtain ⟨tokens, htokens', -, -, hall, -⟩ := build_eq_without hp
  rw [eq_ok_of_toOption htokens] at htokens'
  cases htokens'
  obtain ⟨-, -, -, hunset⟩ := hall _ _ hb fun q hq => (hvalues q hq).1
  obtain ⟨short, hshort, htext⟩ := hunset [("slug", .text "x")] fun q hq =>
    (hvalues q hq).2.imp_right fun hname => by rw [hname]; rfl
  rw [hcuts] at htext
  exact ⟨p, hp, hb, short, hshort, htext⟩

end Winnow.Pattern
