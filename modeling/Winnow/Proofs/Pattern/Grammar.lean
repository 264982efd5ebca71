import Winnow.Pattern.Tokens
import Winnow.Proofs.Outcome
import Winnow.Proofs.Text.Splitting

/-!
# The written form of patterns

Cutting a pattern into tokens loses nothing: the tokens written one after the other are the pattern
again. Which lists of tokens there are is said without the cutting (`WellFormed`), and every one of
them is what its written form is cut into, so tokens and patterns are the same thing
(`tokenize_eq_ok_iff`).

The end of a placeholder is found by counting braces; what it finds is stated as a grammar
(`Balanced`).
-/

namespace Winnow.Pattern

/-! ## Matching braces -/

/-- Texts whose braces match each other. A backslash hides the character after it. -/
inductive Balanced : List Char → Prop
  | nil : Balanced []
  | plain {c : Char} {s : List Char} (hc : c ∉ ['\\', '\x7b', '\x7d']) (hs : Balanced s) :
      Balanced (c :: s)
  | hidden (c : Char) {s : List Char} (hs : Balanced s) : Balanced ('\\' :: c :: s)
  | braces {inner s : List Char} (hinner : Balanced inner) (hs : Balanced s) :
      Balanced ('\x7b' :: inner ++ '\x7d' :: s)

/-- Texts in which `depth` closing braces have no partner. -/
def Closes : Nat → List Char → Prop
  | 0, s => Balanced s
  | depth + 1, s => ∃ first rest, Balanced first ∧ s = first ++ '\x7d' :: rest ∧ Closes depth rest

theorem Closes.prepend {depth : Nat} {s : List Char} (h : Closes depth s) (head : List Char)
    (hhead : ∀ s, Balanced s → Balanced (head ++ s)) : Closes depth (head ++ s) := by
  cases depth with
  | zero => exact hhead s h
  | succ depth =>
      obtain ⟨first, rest, hfirst, rfl, hrest⟩ := h
      exact ⟨head ++ first, rest, hhead first hfirst, by simp, hrest⟩

theorem closes_of_placeholderBody? {depth : Nat} {s body rest : List Char}
    (h : placeholderBody? depth s = some (body, rest)) : Closes depth body := by
  fun_induction placeholderBody? depth s generalizing body rest with
  | case1 => cases h
  | case2 => cases h
  | case3 depth c r ih =>
      obtain ⟨⟨b, r'⟩, hb, he⟩ := Option.map_eq_some_iff.1 h
      cases he
      exact (ih hb).prepend ['\\', c] fun _ hs => hs.hidden c
  | case4 r =>
      cases h
      exact .nil
  | case5 r _ _ depth ih =>
      obtain ⟨⟨b, r'⟩, hb, he⟩ := Option.map_eq_some_iff.1 h
      cases he
      exact ⟨[], b, .nil, rfl, ih hb⟩
  | case6 depth r _ _ _ ih =>
      obtain ⟨⟨b, r'⟩, hb, he⟩ := Option.map_eq_some_iff.1 h
      cases he
      obtain ⟨inner, b', hinner, rfl, hb'⟩ := ih hb
      have hbraces := hb'.prepend ('\x7b' :: inner ++ ['\x7d']) fun s hs => by
        simpa using hinner.braces hs
      simpa using hbraces
  | case7 depth c r hlone hescape hclose hopen ih =>
      obtain ⟨⟨b, r'⟩, hb, he⟩ := Option.map_eq_some_iff.1 h
      cases he
      have hplain : c ∉ ['\\', '\x7b', '\x7d'] := by
        simp only [List.mem_cons, List.not_mem_nil, or_false, not_or]
        refine ⟨?_, hopen, hclose⟩
        rintro rfl
        cases r with
        | nil => exact hlone rfl rfl
        | cons d r => exact hescape d r rfl rfl
      exact (ih hb).prepend [c] fun _ hs => hs.plain hplain

theorem placeholderBody?_cons {c : Char} (hc : c ≠ '\\') (depth : Nat) (rest : List Char) :
    placeholderBody? depth (c :: rest) =
      if c = '\x7d' then
        match depth with
        | 0 => some ([], rest)
        | depth + 1 => (placeholderBody? depth rest).map fun found => (c :: found.1, found.2)
      else (placeholderBody? (if c = '\x7b' then depth + 1 else depth) rest).map
        fun found => (c :: found.1, found.2) := by
  rw [placeholderBody?.eq_def]
  split
  next h => cases h
  next h =>
    cases h
    exact absurd rfl hc
  next h =>
    cases h
    exact absurd rfl hc
  next h =>
    cases h
    split <;> [rfl; (split <;> rfl)]

/-- Balanced text is passed over. -/
theorem placeholderBody?_append {s : List Char} (h : Balanced s) (depth : Nat) (rest : List Char) :
    placeholderBody? depth (s ++ rest) =
      (placeholderBody? depth rest).map fun found => (s ++ found.1, found.2) := by
  induction h generalizing depth rest with
  | nil => simp
  | plain hc hs ih =>
      simp only [List.mem_cons, List.not_mem_nil, or_false, not_or] at hc
      rw [List.cons_append, placeholderBody?_cons hc.1, if_neg hc.2.2, if_neg hc.2.1, ih]
      simp [Function.comp_def]
  | hidden c hs ih =>
      rw [List.cons_append, List.cons_append, placeholderBody?, ih]
      simp [Function.comp_def]
  | @braces inner s hinner hs ihinner ihs =>
      have hassoc : '\x7b' :: inner ++ '\x7d' :: s ++ rest =
          '\x7b' :: (inner ++ '\x7d' :: (s ++ rest)) := by simp
      rw [hassoc, placeholderBody?_cons (by decide), if_neg (by decide), if_pos rfl, ihinner,
        placeholderBody?_cons (by decide), if_pos rfl]
      simp [ihs, Function.comp_def]

/-- **The brace that closes a placeholder is the one behind balanced text.** -/
theorem placeholderBody?_eq_some_iff {s body rest : List Char} :
    placeholderBody? 0 s = some (body, rest) ↔ Balanced body ∧ s = body ++ '\x7d' :: rest := by
  constructor
  · intro h
    exact ⟨closes_of_placeholderBody? h, eq_of_placeholderBody? h⟩
  · rintro ⟨hbody, rfl⟩
    rw [placeholderBody?_append hbody, placeholderBody?_cons (by decide), if_pos rfl]
    simp

theorem Balanced.of_plain {c : Char} {s : List Char} (hc : c ∉ ['\\', '\x7b', '\x7d'])
    (h : Balanced (c :: s)) : Balanced s := by
  cases h with
  | plain _ hs => exact hs
  | hidden => exact absurd List.mem_cons_self hc
  | braces => exact absurd (by simp) hc

/-- Text without braces and backslashes does not matter. -/
theorem balanced_append_iff {head s : List Char}
    (hhead : ∀ c ∈ head, c ∉ ['\\', '\x7b', '\x7d']) : Balanced (head ++ s) ↔ Balanced s := by
  induction head with
  | nil => exact Iff.rfl
  | cons c head ih =>
      obtain ⟨hc, hhead⟩ := List.forall_mem_cons.1 hhead
      rw [← ih hhead]
      exact ⟨fun h => h.of_plain hc, fun h => h.plain hc⟩

/-! ## Placeholders -/

/-- What stands between the braces of a placeholder. -/
def Param.body (q : Param) : List Char :=
  q.kind.mark.toList ++ q.name.toList ++
    match q.kind.constraint? with
    | none => []
    | some c => ':' :: c.toList

/-- Parameters that can be written: the name is one, and the constraint is an expression that is
not blank. -/
structure Param.Written (q : Param) : Prop where
  name : isName q.name.toList = true
  constraint : ∀ c, q.kind = .constrained c →
    c.toList.all Text.isSpace = false ∧ ∃ node, Regex.read c.toList = .ok node

theorem toList_render_param (q : Param) :
    (Token.render (.param q)).toList = '\x7b' :: q.body ++ ['\x7d'] := by
  cases hkind : q.kind <;> simp [Token.render, Param.body, hkind, Kind.constraint?]

theorem isNameChar_of_isName {name : List Char} (h : isName name = true) {c : Char}
    (hc : c ∈ name) : isNameChar c = true := by
  cases name with
  | nil => cases hc
  | cons d name =>
      rw [isName, Bool.and_eq_true, List.all_eq_true] at h
      rcases List.mem_cons.1 hc with rfl | hc
      · have hstart := h.1
        simp only [isNameStart, isNameChar, Char.isAlphanum, Bool.or_eq_true] at hstart ⊢
        tauto
      · exact h.2 c hc

theorem plain_of_isNameChar {c : Char} (h : isNameChar c = true) :
    c ∉ ['\\', '\x7b', '\x7d'] ∧ c ∉ [':', '.', '?'] := by
  constructor
  all_goals
    intro hc
    fin_cases hc <;> revert h <;> decide

/-- The mark of a kind announces it, also before a name. -/
theorem splitMark_mark {kind : Kind} {name rest : List Char} (hname : isName name = true) :
    splitMark (kind.mark.toList ++ name ++ rest) =
      (match kind with
        | .constrained _ => .required
        | kind => kind, name ++ rest) := by
  cases name with
  | nil => cases hname
  | cons c name =>
      have hc := (plain_of_isNameChar (isNameChar_of_isName hname List.mem_cons_self)).2
      simp only [List.mem_cons, List.not_mem_nil, or_false, not_or] at hc
      cases kind with
      | «optional» => rfl
      | splat => rfl
      | _ =>
          show splitMark (c :: (name ++ rest)) = _
          rw [splitMark.eq_def]
          split <;> simp_all

theorem eq_of_splitMark {body rest : List Char} {kind : Kind} (h : splitMark body = (kind, rest)) :
    body = kind.mark.toList ++ rest ∧ kind.constraint? = none := by
  rw [splitMark.eq_def] at h
  split at h <;> cases h <;> exact ⟨rfl, rfl⟩

/-- **What is between the braces says exactly one parameter.** -/
theorem readPlaceholder_eq_ok_iff {source : String} {start position : Nat} {body : List Char}
    {q : Param} : readPlaceholder source start position body = .ok q ↔
      q.Written ∧ q.position = position ∧ body = q.body := by
  constructor
  · intro h
    rcases hmark : splitMark body with ⟨kind, rest⟩
    rcases hcut : Text.cut ':' rest with ⟨name, constraint?⟩
    obtain ⟨hbody, hkind⟩ := eq_of_splitMark hmark
    simp only [readPlaceholder, hmark, hcut] at h
    split at h
    next => cases h
    next hname =>
      have hname : isName (String.ofList name).toList = true := by simpa using hname
      cases constraint? with
      | none =>
          obtain ⟨rfl, -⟩ := Text.cut_eq_none_iff.1 hcut
          cases h
          refine ⟨⟨hname, ?_⟩, rfl, ?_⟩
          · rintro c rfl
            cases hkind
          · simp [Param.body, hkind, hbody]
      | some constraint =>
          obtain ⟨rfl, -⟩ := Text.cut_eq_some_iff.1 hcut
          dsimp only at h
          split at h
          next => cases h
          next hrequired =>
            split at h
            next => cases h
            next hblank =>
              split at h
              next node hread =>
                  cases h
                  refine ⟨⟨hname, ?_⟩, rfl, ?_⟩
                  · rintro c ⟨⟩
                    rw [String.toList_ofList]
                    exact ⟨by simpa using hblank, node, hread⟩
                  · rw [hbody, not_not.1 hrequired]
                    simp [Param.body, Kind.constraint?, Kind.mark]
              next => cases h
  · rintro ⟨hq, rfl, rfl⟩
    -- A name has no colon, so the first one is that in front of the constraint.
    have hfree : ':' ∉ q.name.toList := fun hmem =>
      (plain_of_isNameChar (isNameChar_of_isName hq.name hmem)).2 List.mem_cons_self
    obtain ⟨name, kind, position⟩ := q
    have hname : isName name.toList = true := hq.name
    simp only [readPlaceholder, Param.body, splitMark_mark hname]
    cases kind with
    | constrained c =>
        obtain ⟨hblank, node, hread⟩ := hq.constraint c rfl
        have hcut : Text.cut ':' (name.toList ++ ':' :: c.toList) = (name.toList, some c.toList) :=
          Text.cut_eq_some_iff.2 ⟨rfl, hfree⟩
        simp [Kind.constraint?, hcut, hname, hblank, hread]
    | _ =>
        have hcut : Text.cut ':' name.toList = (name.toList, none) :=
          Text.cut_eq_none_iff.2 ⟨rfl, hfree⟩
        simp [Kind.constraint?, hcut, hname]

/-- Braces match in a placeholder exactly if they do in its constraint. -/
theorem balanced_body_iff {q : Param} (hq : q.Written) :
    Balanced q.body ↔ ∀ c, q.kind = .constrained c → Balanced c.toList := by
  have hname : ∀ c ∈ q.name.toList, c ∉ ['\\', '\x7b', '\x7d'] := fun c hc =>
    (plain_of_isNameChar (isNameChar_of_isName hq.name hc)).1
  have hmark : ∀ c ∈ q.kind.mark.toList, c ∉ ['\\', '\x7b', '\x7d'] := by
    cases q.kind <;> simp [Kind.mark]
  rw [Param.body, List.append_assoc, balanced_append_iff hmark, balanced_append_iff hname]
  cases hkind : q.kind with
  | constrained c =>
      have hcolon : ':' ∉ ['\\', '\x7b', '\x7d'] := by decide
      constructor
      · rintro h c' ⟨⟩
        exact h.of_plain hcolon
      · intro h
        exact (h c rfl).plain hcolon
  | _ => simp [Kind.constraint?, Balanced.nil]

/-! ## Lists of tokens -/

/-- The written form of tokens. -/
def render (tokens : List Token) : String := String.join (tokens.map Token.render)

theorem toList_render (tokens : List Token) :
    (render tokens).toList = tokens.flatMap fun t => t.render.toList := by
  simp [render, List.flatMap_map]

def Token.isLiteral : Token → Bool
  | .literal _ => true
  | .param _ => false

/-- The lists of tokens that are patterns. -/
structure WellFormed (tokens : List Token) : Prop where
  literals : ∀ text, .literal text ∈ tokens →
    text ≠ "" ∧ '\x7b' ∉ text.toList ∧ '\x7d' ∉ text.toList
  apart : tokens.IsChain fun t u => ¬ (t.isLiteral = true ∧ u.isLiteral = true)
  names : ∀ q ∈ paramsOf tokens, isName q.name.toList = true
  distinct : ((paramsOf tokens).map Param.name).Nodup
  positions : (paramsOf tokens).map Param.position = List.range (paramsOf tokens).length
  constraints : ∀ q ∈ paramsOf tokens, ∀ c, q.kind = .constrained c →
    c.toList.all Text.isSpace = false ∧ (∃ node, Regex.read c.toList = .ok node) ∧
      Balanced c.toList

/-- The same, token by token: `tokens` may follow placeholders with the names `seen`. -/
inductive Follows : List String → List Token → Prop
  | nil (seen : List String) : Follows seen []
  | literal {seen : List String} {text : List Char} {rest : List Token} (hne : text ≠ [])
      (hfree : '\x7b' ∉ text ∧ '\x7d' ∉ text) (hrest : ∀ t ∈ rest.head?, t.isLiteral = false)
      (h : Follows seen rest) : Follows seen (.literal (String.ofList text) :: rest)
  | param {seen : List String} {q : Param} {rest : List Token} (hq : q.Written)
      (hbody : Balanced q.body) (hnew : q.name ∉ seen) (hposition : q.position = seen.length)
      (h : Follows (seen ++ [q.name]) rest) : Follows seen (.param q :: rest)

/-- What follows a literal text that was read. -/
theorem Follows.literalOf {seen : List String} {buffer : List Char} {rest : List Token}
    (hfree : '\x7b' ∉ buffer ∧ '\x7d' ∉ buffer) (hrest : ∀ t ∈ rest.head?, t.isLiteral = false)
    (h : Follows seen rest) : Follows seen (literalOf buffer ++ rest) := by
  cases buffer with
  | nil => exact h
  | cons c buffer => exact .literal (by simp) (by simpa [and_comm, eq_comm] using hfree) hrest h

theorem render_literalOf (buffer : List Char) (rest : List Token) :
    ((literalOf buffer ++ rest).flatMap fun t => t.render.toList) =
      buffer.reverse ++ rest.flatMap fun t => t.render.toList := by
  cases buffer with
  | nil => rfl
  | cons c buffer => simp [literalOf, Token.render]

theorem follows_of_tokensFrom {source : String} {start : Nat} {buffer text : List Char}
    {seen : List String} {tokens : List Token} (hbuffer : '\x7b' ∉ buffer ∧ '\x7d' ∉ buffer)
    (h : tokensFrom source start buffer seen text = .ok tokens) :
    Follows seen tokens ∧ (tokens.flatMap fun t => t.render.toList) = buffer.reverse ++ text := by
  fun_induction tokensFrom source start buffer seen text generalizing tokens with
  | case1 start buffer seen =>
      cases h
      have hfollows := Follows.literalOf hbuffer (by simp) (.nil seen)
      have hrender := render_literalOf buffer []
      simp only [List.append_nil] at hfollows
      exact ⟨hfollows, by simpa using hrender⟩
  | case2 => cases h
  | case3 start buffer seen rest body rest' hbody ih =>
      obtain ⟨q, hq, h⟩ := bind_eq_ok.1 h
      split at h
      · cases h
      next hseen =>
        obtain ⟨tokens', htokens, h⟩ := bind_eq_ok.1 h
        cases h
        obtain ⟨hfollows, hrender⟩ := ih q (by simp) htokens
        obtain ⟨hwritten, hposition, rfl⟩ := readPlaceholder_eq_ok_iff.1 hq
        obtain ⟨hbalanced, rfl⟩ := placeholderBody?_eq_some_iff.1 hbody
        have hnew : q.name ∉ seen := by simpa using hseen
        refine ⟨.literalOf hbuffer (by simp [Token.isLiteral])
          (.param hwritten hbalanced hnew hposition hfollows), ?_⟩
        rw [render_literalOf, List.flatMap_cons, toList_render_param, hrender]
        simp
  | case4 => cases h
  | case5 start buffer seen c rest hopen hclose ih =>
      have hbuffer' : '\x7b' ∉ c :: buffer ∧ '\x7d' ∉ c :: buffer := by
        simp [hbuffer, Ne.symm hopen, Ne.symm hclose]
      simpa using ih hbuffer' h

/-- Text without braces is added to the literal that is being read. -/
theorem tokensFrom_append (source : String) (start : Nat) (buffer : List Char) (seen : List String)
    {text : List Char} (hfree : '\x7b' ∉ text ∧ '\x7d' ∉ text) (rest : List Char) :
    tokensFrom source start buffer seen (text ++ rest) =
      tokensFrom source (start + text.length) (text.reverse ++ buffer) seen rest := by
  induction text generalizing start buffer with
  | nil => rfl
  | cons c text ih =>
      simp only [List.mem_cons, not_or] at hfree
      rw [List.cons_append, tokensFrom, if_neg (Ne.symm hfree.1.1), if_neg (Ne.symm hfree.2.1),
        ih _ _ ⟨hfree.1.2, hfree.2.2⟩]
      simp [Nat.add_comm, Nat.add_left_comm]

theorem tokensFrom_of_follows {seen : List String} {tokens : List Token} (h : Follows seen tokens)
    (source : String) (start : Nat) {buffer : List Char}
    (hbuffer : buffer = [] ∨ ∀ t ∈ tokens.head?, t.isLiteral = false) :
    tokensFrom source start buffer seen (tokens.flatMap fun t => t.render.toList) =
      .ok (literalOf buffer ++ tokens) := by
  -- Two literals never stand next to each other, so the buffer is empty in front of a literal.
  induction h generalizing start buffer with
  | nil seen => simp [tokensFrom]
  | @literal seen text rest hne hfree hrest _ ih =>
      obtain rfl : buffer = [] := by simpa [Token.isLiteral] using hbuffer
      have htext : (Token.render (.literal (String.ofList text))).toList = text := by
        simp [Token.render]
      have hliteral : literalOf (text.reverse ++ []) = [.literal (String.ofList text)] := by
        simp [literalOf, hne]
      rw [List.flatMap_cons, htext, tokensFrom_append _ _ _ _ hfree, ih _ (.inr hrest), hliteral]
      rfl
  | @param seen q rest hq hbody hnew hposition _ ih =>
      have htext : (Token.param q :: rest).flatMap (fun t => t.render.toList) =
          '\x7b' :: (q.body ++ '\x7d' :: rest.flatMap fun t => t.render.toList) := by
        rw [List.flatMap_cons, toList_render_param]
        simp
      have hend := placeholderBody?_eq_some_iff.2
        ⟨hbody, rfl (a := q.body ++ '\x7d' :: rest.flatMap fun t => t.render.toList)⟩
      have hread : readPlaceholder source start seen.length q.body = .ok q :=
        readPlaceholder_eq_ok_iff.2 ⟨hq, hposition, rfl⟩
      rw [htext, tokensFrom, if_pos rfl]
      split
      next hnone =>
        rw [hend] at hnone
        cases hnone
      next body rest' hsome =>
        rw [hend] at hsome
        cases hsome
        have hseen : seen.contains q.name = false := by simpa using hnew
        refine bind_eq_ok.2 ⟨q, hread, ?_⟩
        rw [hseen]
        exact bind_eq_ok.2 ⟨_, ih _ (.inl rfl), rfl⟩

/-! ## Both descriptions -/

@[simp] theorem paramsOf_nil : paramsOf [] = [] := rfl

@[simp] theorem paramsOf_literal (text : String) (rest : List Token) :
    paramsOf (.literal text :: rest) = paramsOf rest := rfl

@[simp] theorem paramsOf_param (q : Param) (rest : List Token) :
    paramsOf (.param q :: rest) = q :: paramsOf rest := rfl

theorem Follows.names {seen : List String} {tokens : List Token} (h : Follows seen tokens)
    (hseen : seen.Nodup) : (seen ++ (paramsOf tokens).map Param.name).Nodup := by
  induction h with
  | nil => simpa using hseen
  | literal _ _ _ _ ih => exact ih hseen
  | param _ _ hnew _ _ ih =>
      simpa using ih (List.nodup_append.2 ⟨hseen, by simp, by grind⟩)

theorem Follows.positions {seen : List String} {tokens : List Token} (h : Follows seen tokens) :
    (paramsOf tokens).map Param.position =
      List.range' seen.length (paramsOf tokens).length := by
  induction h with
  | nil => rfl
  | literal _ _ _ _ ih => exact ih
  | param _ _ _ hposition _ ih =>
      simp only [List.length_append, List.length_singleton] at ih
      simp [List.range'_succ, hposition, ih]

theorem Follows.apart {seen : List String} {tokens : List Token} (h : Follows seen tokens) :
    tokens.IsChain fun t u => ¬ (t.isLiteral = true ∧ u.isLiteral = true) := by
  induction h with
  | nil => exact .nil
  | literal _ _ hrest _ ih => exact List.isChain_cons.2 ⟨fun u hu => by simp [hrest u hu], ih⟩
  | param _ _ _ _ _ ih => exact List.isChain_cons.2 ⟨by simp [Token.isLiteral], ih⟩

theorem Follows.literals {seen : List String} {tokens : List Token} (h : Follows seen tokens)
    {text : String} (htext : .literal text ∈ tokens) :
    text ≠ "" ∧ '\x7b' ∉ text.toList ∧ '\x7d' ∉ text.toList := by
  induction h with
  | nil => cases htext
  | literal hne hfree _ _ ih =>
      rcases List.mem_cons.1 htext with he | htext
      · cases he
        rw [String.toList_ofList]
        exact ⟨by simpa [← String.toList_eq_nil_iff] using hne, hfree⟩
      · exact ih htext
  | param _ _ _ _ _ ih => exact ih (by simpa using htext)

theorem Follows.params {seen : List String} {tokens : List Token} (h : Follows seen tokens)
    {q : Param} (hq : q ∈ paramsOf tokens) : q.Written ∧ Balanced q.body := by
  induction h with
  | nil => cases hq
  | literal _ _ _ _ ih => exact ih hq
  | param hwritten hbody _ _ _ ih =>
      rcases List.mem_cons.1 hq with rfl | hq
      · exact ⟨hwritten, hbody⟩
      · exact ih hq

theorem Follows.wellFormed {tokens : List Token} (h : Follows [] tokens) : WellFormed tokens where
  literals _ := h.literals
  apart := h.apart
  names _ hq := (h.params hq).1.name
  distinct := h.names .nil
  positions := by
    rw [List.range_eq_range']
    exact h.positions
  constraints q hq c hc := by
    obtain ⟨hwritten, hbody⟩ := h.params hq
    obtain ⟨hblank, hread⟩ := hwritten.constraint c hc
    exact ⟨hblank, hread, (balanced_body_iff hwritten).1 hbody c hc⟩

theorem follows_of_params {seen : List String} {tokens : List Token}
    (hliterals : ∀ text, .literal text ∈ tokens →
      text ≠ "" ∧ '\x7b' ∉ text.toList ∧ '\x7d' ∉ text.toList)
    (hapart : tokens.IsChain fun t u => ¬ (t.isLiteral = true ∧ u.isLiteral = true))
    (hparams : ∀ q ∈ paramsOf tokens, q.Written ∧ Balanced q.body)
    (hnames : (seen ++ (paramsOf tokens).map Param.name).Nodup)
    (hpositions : (paramsOf tokens).map Param.position =
      List.range' seen.length (paramsOf tokens).length) : Follows seen tokens := by
  induction tokens generalizing seen with
  | nil => exact .nil seen
  | cons t rest ih =>
      obtain ⟨hnext, hapart'⟩ := List.isChain_cons.1 hapart
      have hliterals' := fun text htext => hliterals text (List.mem_cons_of_mem t htext)
      cases t with
      | literal text =>
          obtain ⟨hne, hfree⟩ := hliterals text List.mem_cons_self
          rw [← String.ofList_toList (s := text)]
          refine .literal (by simpa [String.toList_eq_nil_iff] using hne) hfree ?_
            (ih hliterals' hapart' hparams hnames hpositions)
          intro u hu
          simpa [Token.isLiteral] using hnext u hu
      | param q =>
          obtain ⟨⟨hwritten, hbody⟩, hparams⟩ := List.forall_mem_cons.1 hparams
          simp only [paramsOf_param, List.map_cons, List.length_cons, List.range'_succ,
            List.cons.injEq] at hpositions
          have hnew : q.name ∉ seen := by
            intro hmem
            exact (List.nodup_append.1 hnames).2.2 _ hmem _ (by simp) rfl
          refine .param hwritten hbody hnew hpositions.1 (ih hliterals' hapart' hparams ?_ ?_)
          · simpa using hnames
          · simpa using hpositions.2

theorem WellFormed.follows {tokens : List Token} (h : WellFormed tokens) : Follows [] tokens := by
  refine follows_of_params h.literals h.apart (fun q hq => ?_) h.distinct ?_
  · have hwritten : q.Written :=
      ⟨h.names q hq, fun c hc => ⟨(h.constraints q hq c hc).1, (h.constraints q hq c hc).2.1⟩⟩
    exact ⟨hwritten, (balanced_body_iff hwritten).2 fun c hc => (h.constraints q hq c hc).2.2⟩
  · rw [h.positions, List.range_eq_range']
    rfl

/-- **Patterns and lists of tokens are the same thing**: a pattern is what its tokens write, and
every well-formed list of tokens is what its written form is cut into. -/
theorem tokenize_eq_ok_iff {source : String} {tokens : List Token} :
    tokenize source = .ok tokens ↔ WellFormed tokens ∧ render tokens = source := by
  rw [tokenize, ← String.toList_inj, toList_render]
  constructor
  · intro h
    obtain ⟨hfollows, hrender⟩ := follows_of_tokensFrom (by simp) h
    exact ⟨hfollows.wellFormed, hrender⟩
  · rintro ⟨htokens, hrender⟩
    rw [← hrender]
    exact tokensFrom_of_follows htokens.follows source 0 (.inl rfl)

end Winnow.Pattern
