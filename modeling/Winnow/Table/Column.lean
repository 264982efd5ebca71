import Winnow.Value.Display

/-!
# Columns

A column holds cells of one type. The type of a column is the least one that all of its values fit:
nothing fits every type, truth values are numbers where numbers stand beside them, numbers grow to
the wider kind, and numbers and truth values are written out where texts stand beside them. Not all
types meet.
-/

namespace Winnow.Table

/-- The type of a column. Moments are local or in universal time. -/
inductive ColumnType
  | empty
  | boolean
  | int64
  | uint64
  | int128
  | float64
  | text
  | binary
  | day
  | moment (universal : Bool)
  deriving DecidableEq, Repr

/-- The integers of sixty-four bits with a sign. -/
def isInt64 (i : Int) : Bool := -(twoTo 63 : Int) ≤ i && i < twoTo 63

/-- The integers that fit a column. -/
def isInt128 (i : Int) : Bool := -(twoTo 127 : Int) ≤ i && i < twoTo 127

namespace ColumnType

/-- The type of the column that holds a value and nothing else, if there is one. -/
def ofValue? : Value → Option ColumnType
  | .null => some .empty
  | .bool _ => some .boolean
  | .int i =>
    some (if isInt64 i then .int64 else if 0 ≤ i ∧ i < twoTo 64 then .uint64 else .int128)
  | .float _ => some .float64
  | .text _ => some .text
  | .bytes _ => some .binary
  | .date _ => some .day
  | .moment t => some (.moment t.offset.isSome)
  | .list _ | .tuple _ | .set _ | .map _ => none

/-- How much a type of numbers holds; truth values are numbers too. -/
def numberRank? : ColumnType → Option Nat
  | .boolean => some 0
  | .int64 => some 1
  | .uint64 => some 2
  | .int128 => some 3
  | .float64 => some 4
  | _ => none

/-- The type in which two types of numbers meet. Integers with and without a sign meet in the
floating-point numbers. -/
def joinNumbers (a b : ColumnType) (m n : Nat) : ColumnType :=
  if (m = 1 ∧ n = 2) ∨ (m = 2 ∧ n = 1) then .float64 else if m ≤ n then b else a

/-- Days and moments, which are numbers of days and microseconds to numbers. -/
def isTime : ColumnType → Bool
  | .day => true
  | .moment _ => true
  | _ => false

/-- The type in which two types meet. -/
def join? (a b : ColumnType) : Option ColumnType :=
  if a = b then some a
  else if a = .empty then some b
  else if b = .empty then some a
  else match a.numberRank?, b.numberRank? with
    | some m, some n => some (joinNumbers a b m n)
    | some _, none =>
      if b = .text then some .text
      else if b.isTime && (a == .int64 || a == .float64) then some a else none
    | none, some _ =>
      if a = .text then some .text
      else if a.isTime && (b == .int64 || b == .float64) then some b else none
    | none, none =>
      if (a = .text ∧ b.isTime) ∨ (b = .text ∧ a.isTime) then some .text else none

/-- The type of a column of values. -/
def ofValues? (values : List Value) : Option ColumnType :=
  values.foldlM (fun t v => (ofValue? v).bind t.join?) .empty

end ColumnType

/-- The day from which numbers of days and microseconds count. -/
def epoch : Date := ⟨1970, 1, 1⟩

/-- The number that a value is to a column of integers. -/
def number? : Value → Option Int
  | .bool b => some b.toNat
  | .int i => some i
  | .date d => some (d.dayNumber - epoch.dayNumber)
  | .moment t => some (t.instant - epoch.dayNumber * 86400000000)
  | _ => none

/-- Numbers written out beside texts: all digits, without exponent. -/
def written : Binary64.Layout := ⟨-400, 400, false, 1, false, "NaN", "inf"⟩

/-- The text that a value is to a column of texts. -/
def text? : Value → Option String
  | .text s => some s
  | .bool b => some (if b then "true" else "false")
  | .int i => if isInt64 i then some (toString i) else none
  | .float x => some (written.render x)
  | _ => none

/-- The cell that a value becomes in a column of a type. -/
def ColumnType.cell? (t : ColumnType) (v : Value) : Option Value :=
  if let .null := v then some .null else
  match t, v with
  | .boolean, .bool b => some (.bool b)
  | .int64, v => (number? v).map .int
  | .uint64, v => (number? v).map .int
  | .int128, v => (number? v).map .int
  | .float64, .float x => some (.float x)
  | .float64, v => (number? v).map fun i => .float (Binary64.ofInt i)
  | .text, v => (text? v).map .text
  | .binary, .bytes bs => some (.bytes bs)
  | .day, .date d => some (.date d)
  | .moment false, .moment m => some (.moment m)
  | .moment true, .moment m => some (.moment (Moment.ofClock m.instant (some 0)))
  | _, _ => none

/-- Cells of one type under a name. -/
structure Column where
  name : String
  type : ColumnType
  cells : List Value
  deriving Repr

/-- The column of values that meet in a type. -/
def Column.ofValues? (name : String) (values : List Value) : Option Column := do
  let t ← ColumnType.ofValues? values
  let cells ← values.mapM t.cell?
  return ⟨name, t, cells⟩

end Winnow.Table
