import Winnow.Table.Frame

/-!
# Comma-separated text

A frame as lines of fields: the names of the columns, then one line for each row. A text is put
between quotes, with quotes inside written twice, when it is empty or holds a comma, a quote or a
line end, so that it is never taken for an empty cell or for two.
-/

namespace Winnow.Table.Csv

/-- A character that a field cannot hold without quotes. -/
def needsQuotes (c : Char) : Bool := c == '"' || c == ',' || c == '\n' || c == '\r'

/-- A text as a field. -/
def field (s : String) : String :=
  if s.isEmpty || s.toList.any needsQuotes then
    "\"" ++ String.ofList (s.toList.flatMap fun c => if c = '"' then ['"', '"'] else [c]) ++ "\""
  else s

/-- Numbers in fields: without exponent between 10^-5 and 10^16. -/
def number : Binary64.Layout := ⟨-5, 15, true, 1, true, "NaN", "inf"⟩

/-- A moment with all six digits of the fraction; universal time is marked. -/
def moment (t : Moment) : String :=
  t.date.render ++ "T" ++ paddedNat 2 t.hour ++ ":" ++ paddedNat 2 t.minute ++ ":" ++
    paddedNat 2 t.second ++ "." ++ paddedNat 6 t.microsecond ++
    if t.offset.isSome then "+0000" else ""

/-- A cell as a field. Bytes have no such form. -/
def cell? : Value → Option String
  | .null => some ""
  | .bool b => some (if b then "true" else "false")
  | .int i => some (toString i)
  | .float x => some (number.render x)
  | .text s => some (field s)
  | .date d => some d.render
  | .moment t => some (moment t)
  | _ => none

/-- Fields as a line. -/
def line (fields : List String) : String := ",".intercalate fields ++ "\n"

/-- The text of a frame. Columns of bytes have none, nor has a frame with rows and no columns. -/
def render? (f : Frame) : Option String :=
  if f.columns.any (·.type == .binary) || (f.columns.isEmpty && f.height != 0) then none else do
  let rows ← f.cellRows.mapM fun cells => (cells.mapM cell?).map line
  return String.join (line (f.columns.map (field ·.name)) :: rows)

end Winnow.Table.Csv
