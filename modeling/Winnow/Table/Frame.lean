import Winnow.Table.Column
import Winnow.Error

/-!
# Frames

Rows as a table: one column for each name that occurs, in the order of first appearance, with
nothing in the cells of the rows that lack it.
-/

namespace Winnow.Table

/-- Columns of one height. -/
structure Frame where
  height : Nat
  columns : List Column
  deriving Repr

namespace Frame

/-- The names that occur in rows, in the order of first appearance. -/
def namesOf (rows : List Row) : List String :=
  (rows.foldl (fun seen row => row.foldl
    (fun seen entry => if seen.contains entry.1 then seen else entry.1 :: seen) seen) []).reverse

/-- The values of rows under a name. -/
def valuesUnder (name : String) (rows : List Row) : List Value :=
  rows.map fun row => (Assoc.get? name row).getD .null

/-- An integer that fits no column. -/
def isHuge : Value → Bool
  | .int i => !isInt128 i
  | _ => false

/-- The table of rows. An integer beyond all columns is noticed before any other misfit. -/
def ofRows (rows : List Row) : Except Error Frame := do
  if rows.any fun row => row.any fun entry => isHuge entry.2 then
    throw (.type .tooLarge)
  let columns ← (namesOf rows).mapM fun name =>
    match Column.ofValues? name (valuesUnder name rows) with
    | some c => .ok c
    | none => .error .invalidTable
  return ⟨rows.length, columns⟩

/-- The cells of the rows of columns, `height` rows of them. -/
def rowsOf : Nat → List (List Value) → List (List Value)
  | 0, _ => []
  | height + 1, columns => columns.map (·.headD .null) :: rowsOf height (columns.map List.tail)

/-- The cells row by row. -/
def cellRows (f : Frame) : List (List Value) := rowsOf f.height (f.columns.map Column.cells)

end Frame

end Winnow.Table
