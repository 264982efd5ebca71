import Winnow.Calendar
import Winnow.Assoc
import Winnow.Decimal.Binary64

/-!
# Values

Items carry data of any shape: scalars, sequences and mappings as documents hold them. A mapping
keeps its entries in the order in which their keys first came, and its keys are values too.
-/

namespace Winnow

/-- A piece of data. -/
inductive Value
  | null
  | bool (b : Bool)
  | int (i : Int)
  | float (x : Binary64)
  | text (s : String)
  | bytes (bs : List UInt8)
  | date (d : Date)
  | moment (t : Moment)
  | list (items : List Value)
  | tuple (items : List Value)
  | set (items : List Value)
  | map (entries : List (Value × Value))
  deriving Repr, Inhabited

/-- A mapping with values as keys, as an item's metadata is. -/
abbrev Record := Assoc Value Value

/-- A flat row of output. -/
abbrev Row := Assoc String Value

namespace Value

/-- Equality across number types: an integer, a float and a truth value are equal when they are the
same number. -/
def eqScalar : Value → Value → Bool
  | .null, .null => true
  | .bool a, .bool b => a == b
  | .bool a, .int j => (a.toNat : Int) == j
  | .int i, .bool b => i == (b.toNat : Int)
  | .bool a, .float y => Binary64.eqInt a.toNat y
  | .float x, .bool b => Binary64.eqInt b.toNat x
  | .int i, .int j => i == j
  | .int i, .float y => Binary64.eqInt i y
  | .float x, .int j => Binary64.eqInt j x
  | .float x, .float y => x.eq y
  | .text s, .text t => s == t
  | .bytes a, .bytes b => a == b
  | .date a, .date b => a == b
  | .moment a, .moment b => a.eq b
  | _, _ => false

mutual

/-- Loose equality: numbers are compared as numbers whatever their type, lists and tuples item by
item, sets and mappings regardless of order. -/
def eq : Value → Value → Bool
  | .list xs, .list ys => eqItems xs ys
  | .tuple xs, .tuple ys => eqItems xs ys
  | .set xs, .set ys => xs.length == ys.length && within xs ys
  | .map xs, .map ys => xs.length == ys.length && entriesWithin xs ys
  | a, b => eqScalar a b

def eqItems : List Value → List Value → Bool
  | [], [] => true
  | x :: xs, y :: ys => eq x y && eqItems xs ys
  | _, _ => false

/-- Every item of the first list is equal to one of the second. -/
def within : List Value → List Value → Bool
  | [], _ => true
  | x :: xs, ys => ys.any (fun y => eq x y) && within xs ys

/-- Every entry of the first list has an equal entry in the second. -/
def entriesWithin : List (Value × Value) → List (Value × Value) → Bool
  | [], _ => true
  | (k, v) :: xs, ys => ys.any (fun (k', v') => eq k k' && eq v v') && entriesWithin xs ys

end

/-- Keys of mappings are compared loosely. -/
instance : BEq Value := ⟨eq⟩

/-- What counts as false in a condition: nothing, zero, and whatever is empty. -/
def isTruthy : Value → Bool
  | .null => false
  | .bool b => b
  | .int i => i != 0
  | .float x => !Binary64.eqInt 0 x
  | .text s => !s.isEmpty
  | .bytes bs => !bs.isEmpty
  | .date _ => true
  | .moment _ => true
  | .list xs => !xs.isEmpty
  | .tuple xs => !xs.isEmpty
  | .set xs => !xs.isEmpty
  | .map xs => !xs.isEmpty

/-- The name of a value's type in messages. -/
def typeName : Value → String
  | .null => "NoneType"
  | .bool _ => "bool"
  | .int _ => "int"
  | .float _ => "float"
  | .text _ => "str"
  | .bytes _ => "bytes"
  | .date _ => "date"
  | .moment _ => "datetime"
  | .list _ => "list"
  | .tuple _ => "tuple"
  | .set _ => "set"
  | .map _ => "dict"

/-- The entry of a mapping under a text key. -/
def field? (name : String) : Value → Option Value
  | .map entries => Assoc.get? (Value.text name) entries
  | _ => none

end Value

/-- The value under a text key. -/
def Record.field? (name : String) (r : Record) : Option Value := Assoc.get? (Value.text name) r

end Winnow
