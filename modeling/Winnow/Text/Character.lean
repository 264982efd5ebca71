import Winnow.Text.WordTable
import Winnow.Text.PrintableTable
import Winnow.Text.CaseTable
import Winnow.Text.CasedTable

/-!
# Character classes and lower case

Membership in the tables of the character database: word characters, decimal digits, white space,
printable characters, and the lower case of a text. The lower case of a text is taken character by
character, except that a capital sigma at the end of a word has a form of its own.
-/

namespace Winnow.Text

/-- Membership in increasing inclusive ranges; the search stops at the first range beyond `n`. -/
def inRanges (n : Nat) : List (Nat × Nat) → Bool
  | [] => false
  | (lo, hi) :: rest => if n < lo then false else n ≤ hi || inRanges n rest

/-- A letter, a digit or a numeral of any script. -/
def isAlphanumeric (c : Char) : Bool := inRanges c.toNat alphanumericRanges

/-- A word character: alphanumeric or the underscore. -/
def isWord (c : Char) : Bool := isAlphanumeric c || c == '_'

/-- A decimal digit of any script. -/
def isDigit (c : Char) : Bool := inRanges c.toNat digitRanges

/-- White space of any script, separators of information included. -/
def isSpace (c : Char) : Bool := inRanges c.toNat spaceRanges

/-- A character that can be shown as it is. -/
def isPrintable (c : Char) : Bool := inRanges c.toNat printableRanges

/-- The value of a decimal digit of any script. -/
def digitValue? (c : Char) : Option Nat :=
  digitRanges.findSome? fun (lo, hi) =>
    if lo ≤ c.toNat ∧ c.toNat ≤ hi then some ((c.toNat - lo) % 10) else none

/-- The lower case of a character as a single character. -/
def toLowerChar (c : Char) : Char :=
  let n := c.toNat
  match lowercaseRuns.find? fun (lo, hi, _, step) => lo ≤ n && n ≤ hi && (n - lo) % step == 0 with
  | some (_, _, shift, _) => Char.ofNat (Int.toNat (n + shift))
  | none => c

/-- Whether the nearest neighbour that is not looked through has a case. -/
def nextIsCased : List Char → Bool
  | [] => false
  | c :: rest =>
    if inRanges c.toNat caseIgnorableRanges then nextIsCased rest
    else inRanges c.toNat casedRanges

/-- The lower case of the character that follows the reversed text `before` and is followed by
`after`. -/
def lowerAt (before : List Char) (c : Char) (after : List Char) : List Char :=
  if c == 'Σ' then
    if nextIsCased before && !nextIsCased after then ['ς'] else ['σ']
  else if c == 'İ' then ['i', '\u0307']
  else [toLowerChar c]

/-- The lower case of the text `rest` that follows the reversed text `before`. -/
def lowerAfter (before : List Char) : List Char → List Char
  | [] => []
  | c :: rest => lowerAt before c rest ++ lowerAfter (c :: before) rest

/-- The lower case of a text. -/
def lower (s : List Char) : List Char := lowerAfter [] s

/-- Removes the characters of a class at both ends. -/
def stripOf (isBlank : Char → Bool) (s : List Char) : List Char :=
  ((s.dropWhile isBlank).reverse.dropWhile isBlank).reverse

/-- Removes white space at both ends. -/
def strip (s : List Char) : List Char := stripOf isSpace s

/-- White space that may stand around a number: all but the separators of information. -/
def isNumberSpace (c : Char) : Bool := isSpace c && !(0x1C ≤ c.toNat && c.toNat ≤ 0x1F)

/-- Removes white space around a number. -/
def stripNumber (s : List Char) : List Char := stripOf isNumberSpace s

/-- The characters that caseless matching takes for `c`: those with the same lower case or with a
lower case of the same family. -/
def caseVariants (c : Char) : List Char :=
  let low := toLowerChar c
  let family := low :: ((caseFamilies.filter fun f => f.contains low.toNat).flatMap
    fun f => f.map Char.ofNat)
  family.flatMap fun l =>
    let capitals := lowercaseRuns.filterMap fun (lo, hi, shift, step) =>
      let n := (l.toNat : Int) - shift
      if (lo : Int) ≤ n ∧ n ≤ hi ∧ (n - lo) % step = 0 then some (Char.ofNat n.toNat) else none
    if toLowerChar l == l then l :: capitals else capitals

end Winnow.Text
