import Winnow.Table.Csv
import Winnow.Value.Json

/-!
# Payloads

The rows of an answer as one piece of output. A page of the rows is chosen, and it is given whole or
not at all: a page of too many rows, or one whose text is too large, is only counted.
-/

namespace Winnow.Output

/-- How rows are written. -/
inductive Form
  | json
  | csv
  deriving DecidableEq, Repr

namespace Form

def ofName (name : String) : Except Error Form :=
  if name = "json" then .ok .json
  else if name = "csv" then .ok .csv
  else .error (.argument (.unsupportedFormat name))

def name : Form → String
  | .json => "json"
  | .csv => "csv"

end Form

/-- Which rows are wanted: those from `offset` on, at most `limit` of them. A negative number counts
from the end of the rows. -/
structure Page where
  offset : Int := 0
  limit : Option Int := none
  deriving DecidableEq, Repr

/-- The rows from a place on. -/
def dropInt {α : Type} (n : Int) (xs : List α) : List α :=
  if n < 0 then xs.drop (xs.length - n.natAbs) else xs.drop n.toNat

/-- The rows before a place. -/
def takeInt {α : Type} (n : Int) (xs : List α) : List α :=
  if n < 0 then xs.take (xs.length - n.natAbs) else xs.take n.toNat

/-- The rows of a page. A limit of zero is no limit. -/
def Page.rows {α : Type} (p : Page) (xs : List α) : List α :=
  let rest := dropInt p.offset xs
  match p.limit with
  | none => rest
  | some n => if n = 0 then rest else takeInt n rest

/-- The most that a payload may hold. -/
structure Cap where
  rows : Int := 5000
  bytes : Int := 2000000
  deriving DecidableEq, Repr

/-- The output for a page of rows. -/
inductive Payload
  | tooLarge (rowCount : Nat)
  | json (rows : List Row)
  | csv (text : String) (rowCount : Nat)
  deriving Repr

/-- A row as a mapping. -/
def rowValue (row : Row) : Value := .map (row.map fun (k, v) => (.text k, v))

/-- Rows as a list of mappings. -/
def rowsValue (rows : List Row) : Value := .list (rows.map rowValue)

/-- The JSON text of a value, if it has one. -/
def jsonText (f : Json.Format) (v : Value) : Except Error String :=
  (Json.text f v).mapError fun
    | .key _ => .type .unsuitable
    | .tooLongInt => .type (.unconvertible .tooLongToWrite)

/-- A value as a cell: lists and mappings are written as JSON. -/
def cellOf : Value → Except Error Value
  | .list xs => (jsonText .line (.list xs)).map .text
  | .tuple xs => (jsonText .line (.tuple xs)).map .text
  | .map xs => (jsonText .line (.map xs)).map .text
  | v => .ok v

/-- A row of cells. -/
def cellRow (row : Row) : Except Error Row :=
  row.mapM fun (k, v) => (cellOf v).map fun c => (k, c)

/-- Rows as comma-separated text. -/
def csvText (rows : List Row) : Except Error String := do
  let frame ← Table.Frame.ofRows (← rows.mapM cellRow)
  match Table.Csv.render? frame with
  | some s => .ok s
  | none => .error .invalidTable

namespace Payload

/-- The text whose size counts for rows as JSON. -/
def dump (rows : List Row) : Except Error String :=
  jsonText .line (.map [(.text "data", rowsValue rows)])

/-- The payload of selected rows. -/
def ofRows (form : Form) (cap : Cap) (rows : List Row) : Except Error Payload :=
  if cap.rows < rows.length then .ok (.tooLarge rows.length) else
  match form with
  | .json => do
    let text ← dump rows
    return if cap.bytes < text.utf8ByteSize then .tooLarge rows.length else .json rows
  | .csv => do
    let text ← csvText rows
    return if cap.bytes < text.utf8ByteSize then .tooLarge rows.length
      else .csv text rows.length

/-- The payload of a page of rows. -/
def make (form : Form) (page : Page) (cap : Cap) (rows : List Row) : Except Error Payload :=
  ofRows form cap (page.rows rows)

/-- The number of rows of the page. -/
def rowCount : Payload → Nat
  | .tooLarge n => n
  | .json rows => rows.length
  | .csv _ n => n

end Payload

end Winnow.Output
