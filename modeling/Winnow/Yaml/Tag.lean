import Winnow.Text.Lines
import Winnow.Yaml.Timestamp

/-!
# Tags

The kinds of nodes that documents name by tags, and the kind of a plain scalar, which its form
decides.
-/

namespace Winnow.Yaml

inductive Tag
  | null
  | bool
  | int
  | float
  | binary
  | timestamp
  | text
  | list
  | map
  | set
  /-- A list of pairs. -/
  | pairs
  /-- The key under which other mappings are merged. -/
  | merge
  /-- The key of a mapping's own value. -/
  | value
  | other (name : String)
  deriving DecidableEq, Repr

namespace Tag

/-- What the names of all common tags begin with. -/
def family : String := "tag:yaml.org,2002:"

/-- The kind that a full tag names. -/
def ofName (name : String) : Tag :=
  match Text.dropHead? family.toList name.toList with
  | none => .other name
  | some short =>
    match String.ofList short with
    | "null" => .null
    | "bool" => .bool
    | "int" => .int
    | "float" => .float
    | "binary" => .binary
    | "timestamp" => .timestamp
    | "str" => .text
    | "seq" => .list
    | "map" => .map
    | "set" => .set
    | "omap" => .pairs
    | "pairs" => .pairs
    | "merge" => .merge
    | "value" => .value
    | _ => .other name

/-! ## The form of plain scalars -/

def isDigitOrLine (c : Char) : Bool := c.isDigit || c == '_'

/-- Drops a sign. -/
def unsigned : List Char → List Char
  | '-' :: rest => rest
  | '+' :: rest => rest
  | s => s

/-- Nothing, or a colon with a number below sixty, as often as there are; `parts` counts them. -/
def afterSixties (parts : Nat) : List Char → Nat × List Char
  | ':' :: a :: b :: rest =>
    if ('0' ≤ a && a ≤ '5') && b.isDigit then afterSixties (parts + 1) rest
    else if a.isDigit then afterSixties (parts + 1) (b :: rest)
    else (parts, ':' :: a :: b :: rest)
  | [':', a] => if a.isDigit then (parts + 1, []) else (parts, [':', a])
  | s => (parts, s)

/-- Nothing, or an exponent with a sign. -/
def isExponent : List Char → Bool
  | [] => true
  | e :: sign :: ds =>
    (e == 'e' || e == 'E') && (sign == '-' || sign == '+') && !ds.isEmpty && ds.all Char.isDigit
  | _ => false

/-- Binary, octal, decimal and hexadecimal integers, and integers in base sixty. -/
def isInt (s : List Char) : Bool :=
  match unsigned s with
  | '0' :: 'b' :: ds => !ds.isEmpty && ds.all fun c => c == '0' || c == '1' || c == '_'
  | '0' :: 'x' :: ds =>
    !ds.isEmpty && ds.all fun c =>
      isDigitOrLine c || ('a' ≤ c && c ≤ 'f') || ('A' ≤ c && c ≤ 'F')
  | '0' :: ds => ds.all fun c => ('0' ≤ c && c ≤ '7') || c == '_'
  | d :: rest =>
    d.isDigit && (afterSixties 0 (rest.dropWhile isDigitOrLine)).2.isEmpty
  | [] => false

/-- Decimals with a point, numbers in base sixty with a point, infinity and not-a-number. -/
def isFloat (s : List Char) : Bool :=
  let afterPoint (rest : List Char) := rest.dropWhile isDigitOrLine
  (match unsigned s with
    | d :: rest =>
      d.isDigit &&
        match afterSixties 0 (rest.dropWhile isDigitOrLine) with
        | (0, '.' :: rest) => isExponent (afterPoint rest)
        | (_, '.' :: rest) => (afterPoint rest).isEmpty
        | _ => false
    | [] => false) ||
  (match s with
    | '.' :: d :: rest => d.isDigit && isExponent (afterPoint rest)
    | _ => false) ||
  [".inf", ".Inf", ".INF"].any (·.toList == unsigned s) ||
  [".nan", ".NaN", ".NAN"].any (·.toList == s)

def boolWords : List String :=
  ["yes", "Yes", "YES", "no", "No", "NO", "true", "True", "TRUE", "false", "False", "FALSE",
   "on", "On", "ON", "off", "Off", "OFF"]

def nullWords : List String := ["", "~", "null", "Null", "NULL"]

/-- Drops a line feed at the end. -/
def dropFinalBreak (s : List Char) : List Char :=
  if s.getLast? == some '\n' then s.dropLast else s

/-- The kind of a plain scalar. A line feed at its end does not count, but it has to have a
character before it. -/
def ofPlain (text : List Char) : Tag :=
  let s := dropFinalBreak text
  let word := String.ofList s
  if s.isEmpty && !text.isEmpty then .text
  else if boolWords.contains word then .bool
  else if isFloat s then .float
  else if isInt s then .int
  else if word == "<<" then .merge
  else if nullWords.contains word then .null
  else if Timestamp.isPlainForm s then .timestamp
  else if word == "=" then .value
  else if word == "!" || word == "&" || word == "*" then .other (family ++ "yaml")
  else .text

end Tag

end Winnow.Yaml
