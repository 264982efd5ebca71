import Winnow.Output.Payload
import Winnow.Table.Tally

/-!
# Distinct values

The values of one field of rows, each with the number of rows that have it.
-/

namespace Winnow.Output

/-- Which values are given: those of at least `minCount` rows, at most `limit` of them. A negative
limit leaves out that many at the end. -/
structure Frequency where
  limit : Int := 100
  minCount : Int := 1
  deriving DecidableEq, Repr

/-- The name of the column of counts. -/
def countName : String := "count"

/-- The values of a field and their counts, the most frequent first. A field that is named like the
counts cannot be counted. -/
def distinct (field : String) (f : Frequency) (rows : List Row) : Except Error (List Row) := do
  if rows.isEmpty then return []
  let cells ← rows.mapM fun row => cellOf ((Assoc.get? field row).getD .null)
  let frame ← Table.Frame.ofRows (cells.map fun c => [(field, c)])
  if field = countName then throw .invalidTable
  let tallies := Table.Tally.ofCells (frame.columns.flatMap Table.Column.cells)
  let kept := tallies.filter fun t => f.minCount ≤ t.count
  return (takeInt f.limit kept).map fun t => [(field, t.value), (countName, .int t.count)]

end Winnow.Output
