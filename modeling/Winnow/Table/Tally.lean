import Winnow.Table.Frame

/-!
# Tallies

How often each value occurs in a column, the most frequent first; values of one frequency are in
their own order, with nothing last.
-/

namespace Winnow.Table

/-- A value and the number of its occurrences. -/
structure Tally where
  value : Value
  count : Nat
  deriving Repr

/-- The order of numbers in which not-a-number is one value, above all others. -/
def compareNumbers (x y : Binary64) : Ordering :=
  match x.compare? y with
  | some o => o
  | none => compare x.isNaN.toNat y.isNaN.toNat

/-- The order of byte strings by their first difference. -/
def compareBytes : List UInt8 → List UInt8 → Ordering
  | [], [] => .eq
  | [], _ :: _ => .lt
  | _ :: _, [] => .gt
  | a :: as, b :: bs => (compare a b).then (compareBytes as bs)

/-- The order of the cells of one column; nothing is last. -/
def compareCells : Value → Value → Ordering
  | .null, .null => .eq
  | .null, _ => .gt
  | _, .null => .lt
  | .bool a, .bool b => compare a.toNat b.toNat
  | .int i, .int j => compare i j
  | .float x, .float y => compareNumbers x y
  | .text s, .text t => compare s t
  | .bytes a, .bytes b => compareBytes a b
  | .date d, .date e => compare d.dayNumber e.dayNumber
  | .moment s, .moment t => compare s.instant t.instant
  | _, _ => .eq

namespace Tally

/-- Counts the runs of equal cells, with the tallies so far in reverse. -/
def runs (done : List Tally) : List Value → List Tally
  | [] => done.reverse
  | v :: rest =>
    match done with
    | t :: before =>
      if compareCells t.value v == .eq then runs (⟨t.value, t.count + 1⟩ :: before) rest
      else runs (⟨v, 1⟩ :: done) rest
    | [] => runs [⟨v, 1⟩] rest

/-- The tallies of cells: equal cells are counted under the first of them. -/
def ofCells (cells : List Value) : List Tally :=
  (runs [] (cells.mergeSort fun a b => (compareCells a b).isLE)).mergeSort
    fun s t => t.count ≤ s.count

end Tally

end Winnow.Table
