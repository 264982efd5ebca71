import Winnow.Error
import Winnow.Regex.Reading
import Winnow.Text.Lines

/-!
# Tokens of a pattern

Cuts the text of a pattern into literals and placeholders. A placeholder ends at the brace that
closes it; inside, a backslash hides the next character, so that an expression can hold braces.
-/

namespace Winnow.Pattern

/-- The text up to the closing brace that is matched at `depth`, and the text behind that brace. -/
def placeholderBody? (depth : Nat) : List Char → Option (List Char × List Char)
  | [] => none
  | ['\\'] => none
  | '\\' :: c :: rest => (placeholderBody? depth rest).map fun (b, r) => ('\\' :: c :: b, r)
  | c :: rest =>
    if c = '\x7d' then
      match depth with
      | 0 => some ([], rest)
      | depth + 1 => (placeholderBody? depth rest).map fun (b, r) => (c :: b, r)
    else if c = '\x7b' then (placeholderBody? (depth + 1) rest).map fun (b, r) => (c :: b, r)
    else (placeholderBody? depth rest).map fun (b, r) => (c :: b, r)

/-- A placeholder's body and what follows it make up the text with one brace between them. -/
theorem eq_of_placeholderBody? {depth : Nat} {s body rest : List Char}
    (h : placeholderBody? depth s = some (body, rest)) : s = body ++ '\x7d' :: rest := by
  fun_induction placeholderBody? depth s generalizing body rest with
  | case1 => simp at h
  | case2 => simp at h
  | case3 depth c r ih =>
    obtain ⟨⟨b, r'⟩, h', e⟩ := Option.map_eq_some_iff.1 h
    cases e
    simp [ih h']
  | case4 r =>
    cases h
    rfl
  | case5 r _ _ depth ih =>
    obtain ⟨⟨b, r'⟩, h', e⟩ := Option.map_eq_some_iff.1 h
    cases e
    simp [ih h']
  | case6 depth r _ _ _ ih =>
    obtain ⟨⟨b, r'⟩, h', e⟩ := Option.map_eq_some_iff.1 h
    cases e
    simp [ih h']
  | case7 depth c r _ _ _ _ ih =>
    obtain ⟨⟨b, r'⟩, h', e⟩ := Option.map_eq_some_iff.1 h
    cases e
    simp [ih h']

theorem length_lt_of_placeholderBody? {depth : Nat} {s body rest : List Char}
    (h : placeholderBody? depth s = some (body, rest)) : rest.length < s.length := by
  rw [eq_of_placeholderBody? h]
  simp
  omega

/-- A letter or underscore of ASCII. -/
def isNameStart (c : Char) : Bool := c.isAlpha || c == '_'

def isNameChar (c : Char) : Bool := c.isAlphanum || c == '_'

/-- A parameter's name: a letter or underscore, then letters, digits and underscores, all of
ASCII. -/
def isName : List Char → Bool
  | [] => false
  | c :: rest => isNameStart c && rest.all isNameChar

/-- The kind that the opening mark of a placeholder announces, and what follows the mark. -/
def splitMark : List Char → Kind × List Char
  | '.' :: '.' :: '.' :: rest => (.splat, rest)
  | '?' :: rest => (.optional, rest)
  | rest => (.required, rest)

/-- The error for a constraint that is no expression. -/
def constraintError (fault : Regex.Fault) (otherwise : Error) : Error :=
  match fault with
  | .malformed => otherwise
  | .countTooLarge => .countTooLarge
  | .tooManyDigits n => .type (.unconvertible (.tooManyDigits n))
  | .flagClash => .flagClash
  | .namedCharacter => .type (.unconvertible (.unread .characterName))

/-- The parameter that the body of a placeholder describes. `start` is where the placeholder opens
in the text `source`, and `position` counts the parameters before it. -/
def readPlaceholder (source : String) (start position : Nat) (body : List Char) :
    Except Error Param :=
  let fault (f : PatternFault) : Except Error Param := .error (.pattern source f (some start))
  let (kind, rest) := splitMark body
  let (name, constraint?) := Text.cut ':' rest
  let shown := String.ofList name
  if !isName name then fault (.invalidName shown)
  else match constraint? with
  | none => .ok ⟨shown, kind, position⟩
  | some constraint =>
    if kind ≠ .required then fault (.constraintNotAllowed kind shown)
    else if constraint.all Text.isSpace then fault (.emptyConstraint shown)
    else match Regex.read constraint with
    | .ok _ => .ok ⟨shown, .constrained (String.ofList constraint), position⟩
    | .error f =>
      .error (constraintError f (.pattern source (.invalidConstraint shown) (some start)))

/-- A literal of the reversed text `buffer`, unless that is empty. -/
def literalOf (buffer : List Char) : List Token :=
  if buffer.isEmpty then [] else [.literal (String.ofList buffer.reverse)]

/-- The tokens of a text that starts at `start` behind the reversed literal text `buffer` and the
parameters named in `seen`. -/
def tokensFrom (source : String) (start : Nat) (buffer : List Char) (seen : List String)
    (text : List Char) : Except Error (List Token) :=
  match text with
  | [] => .ok (literalOf buffer)
  | c :: rest =>
    if c = '\x7b' then
      match _h : placeholderBody? 0 rest with
      | none => .error (.pattern source .unclosedBrace (some start))
      | some (body, rest') => do
        let p ← readPlaceholder source start seen.length body
        if seen.contains p.name then
          throw (.pattern source (.duplicateName p.name) (some start))
        let tokens ← tokensFrom source (start + body.length + 2) [] (seen ++ [p.name]) rest'
        return literalOf buffer ++ .param p :: tokens
    else if c = '\x7d' then .error (.pattern source .unmatchedBrace (some start))
    else tokensFrom source (start + 1) (c :: buffer) seen rest
termination_by text.length
decreasing_by
  · have := length_lt_of_placeholderBody? _h
    simp
    omega
  · simp

/-- The tokens of a pattern. -/
def tokenize (source : String) : Except Error (List Token) :=
  tokensFrom source 0 [] [] source.toList

end Winnow.Pattern
