import Winnow.Value
import Winnow.Decimal.Shortest
import Winnow.Decimal.Integer
import Winnow.Text.Quoted

/-!
# Values as text

Two texts of a value: `Value.quoted` is the form that tells types apart, with quotes around texts;
`Value.plain` is the same except that a text stands for itself and days and moments are written in
their standard form.

Integers have these texts whatever their size, but there is a limit to the digits that are written:
a value with an integer beyond it (`Value.isWritable`) is refused where its text is asked for.
-/

namespace Winnow.Value

/-- The quoted form of a scalar. -/
def quotedScalar : Value → String
  | .null => "None"
  | .bool b => if b then "True" else "False"
  | .int i => toString i
  | .float x => Binary64.plain.render x
  | .text s => Text.quote s
  | .bytes bs => Text.quoteBytes bs
  | .date d => d.renderCall
  | .moment t => t.renderCall
  | _ => ""

mutual

/-- The form of a value that tells types apart. -/
def quoted : Value → String
  | .list xs => "[" ++ ", ".intercalate (quotedItems xs) ++ "]"
  | .tuple [x] => "(" ++ quoted x ++ ",)"
  | .tuple xs => "(" ++ ", ".intercalate (quotedItems xs) ++ ")"
  | .set [] => "set()"
  | .set xs => "\x7b" ++ ", ".intercalate (quotedItems xs) ++ "\x7d"
  | .map xs => "\x7b" ++ ", ".intercalate (quotedEntries xs) ++ "\x7d"
  | v => quotedScalar v

def quotedItems : List Value → List String
  | [] => []
  | x :: xs => quoted x :: quotedItems xs

def quotedEntries : List (Value × Value) → List String
  | [] => []
  | (k, v) :: xs => (quoted k ++ ": " ++ quoted v) :: quotedEntries xs

end

/-- The text of a value. -/
def plain : Value → String
  | .text s => s
  | .date d => d.render
  | .moment t => t.renderWith " "
  | v => v.quoted

/-- Whether an integer has no more digits than are written. For most integers the bound need not be
known. -/
def isWritableInt (i : Int) : Bool :=
  if i.natAbs < 1000000000000000000 then true else i.natAbs < tenTo Integer.maxDigits

mutual

/-- Whether every integer in a value can be written. -/
def isWritable : Value → Bool
  | .int i => isWritableInt i
  | .list xs => areWritable xs
  | .tuple xs => areWritable xs
  | .set xs => areWritable xs
  | .map xs => entriesWritable xs
  | _ => true

def areWritable : List Value → Bool
  | [] => true
  | x :: xs => isWritable x && areWritable xs

def entriesWritable : List (Value × Value) → Bool
  | [] => true
  | (k, v) :: xs => isWritable k && isWritable v && entriesWritable xs

end

end Winnow.Value

namespace Winnow

/-- The quoted form of an association with text keys. -/
def quotedAssoc (m : Assoc String Value) : String :=
  Value.quoted (.map (m.map fun (k, v) => (.text k, v)))

/-- The quoted form of an optional text. -/
def quotedOption : Option String → String
  | none => "None"
  | some s => Text.quote s

/-- The quoted form of several texts in parentheses. -/
def quotedTuple (names : List String) : String := Value.quoted (.tuple (names.map .text))

end Winnow
