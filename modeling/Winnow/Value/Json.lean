import Winnow.Value.Display

/-!
# Values as JSON

The JSON text of a value, on one line or indented. Texts are escaped only where they must be; what
JSON has no form for (bytes, days, moments, sets) is written as its text. A mapping whose key is
not a scalar has no JSON text, and neither has an integer that is too long to be written.
-/

namespace Winnow.Json

/-- Where the parts of a JSON text are put. -/
structure Format where
  /-- The spaces by which each level is indented, or `none` for one line. -/
  indent : Option Nat
  deriving DecidableEq, Repr

def Format.line : Format := ⟨none⟩

def Format.pretty : Format := ⟨some 2⟩

/-- One character of a JSON text. -/
def escapeChar (c : Char) : List Char :=
  if c == '"' then ['\\', '"']
  else if c == '\\' then ['\\', '\\']
  else if c == '\n' then ['\\', 'n']
  else if c == '\r' then ['\\', 'r']
  else if c == '\t' then ['\\', 't']
  else if c == '\x08' then ['\\', 'b']
  else if c == '\x0c' then ['\\', 'f']
  else if c.toNat < 0x20 then '\\' :: 'u' :: Text.hexDigits 4 c.toNat
  else [c]

/-- A JSON string. -/
def quote (s : String) : String :=
  s.foldl (fun acc c => (escapeChar c).foldl String.push acc) "\"" ++ "\""

/-- Numbers in JSON: the plain form, with names for what is not finite. -/
def number : Binary64.Layout := ⟨-4, 15, true, 2, true, "NaN", "Infinity"⟩

/-- Why a value has no JSON text. -/
inductive Fault
  /-- A key that has no JSON form, by the name of its type. -/
  | key (typeName : String)
  | tooLongInt
  deriving DecidableEq, Repr

/-- The JSON text of an integer. -/
def intText (i : Int) : Except Fault String :=
  if Value.isWritableInt i then .ok (toString i) else .error .tooLongInt

/-- The JSON text of a key. -/
def key : Value → Except Fault String
  | .text s => .ok s
  | .bool b => .ok (if b then "true" else "false")
  | .null => .ok "null"
  | .int i => intText i
  | .float x => .ok (number.render x)
  | v => .error (.key v.typeName)

/-- The parts of a list or mapping between brackets. -/
def Format.enclose (f : Format) (depth : Nat) (left right : String) (parts : List String) :
    String :=
  if parts.isEmpty then left ++ right else
  match f.indent with
  | none => left ++ ", ".intercalate parts ++ right
  | some n =>
    let inner := "\n".pushn ' ' (n * (depth + 1))
    left ++ inner ++ ("," ++ inner).intercalate parts ++ "\n".pushn ' ' (n * depth) ++ right

mutual

/-- The JSON text of a value at a depth of indentation. -/
def textAt (f : Format) (depth : Nat) : Value → Except Fault String
  | .null => .ok "null"
  | .bool b => .ok (if b then "true" else "false")
  | .int i => intText i
  | .float x => .ok (number.render x)
  | .text s => .ok (quote s)
  | .list xs => do return f.enclose depth "[" "]" (← itemTexts f (depth + 1) xs)
  | .tuple xs => do return f.enclose depth "[" "]" (← itemTexts f (depth + 1) xs)
  | .map xs => do return f.enclose depth "\x7b" "\x7d" (← entryTexts f (depth + 1) xs)
  | v => if v.isWritable then .ok (quote v.plain) else .error .tooLongInt

def itemTexts (f : Format) (depth : Nat) : List Value → Except Fault (List String)
  | [] => .ok []
  | x :: xs => do
    let head ← textAt f depth x
    let tail ← itemTexts f depth xs
    return head :: tail

def entryTexts (f : Format) (depth : Nat) : List (Value × Value) → Except Fault (List String)
  | [] => .ok []
  | (k, v) :: xs => do
    let name ← key k
    let head ← textAt f depth v
    let tail ← entryTexts f depth xs
    return (quote name ++ ": " ++ head) :: tail

end

/-- The JSON text of a value. -/
def text (f : Format) (v : Value) : Except Fault String := textAt f 0 v

end Winnow.Json
