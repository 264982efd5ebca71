import Winnow.Cli.Assignments
import Winnow.Cli.Outcome
import Winnow.Files.Catalog
import Winnow.Output.Distinct

/-!
# Running commands

Every command as a function of the files that it finds. A command ends with 0 when it has something
to show, with 1 when it has nothing or cannot get at it, and with 2 when it makes no sense.

Command lines, names of files and texts are sequences of characters here, and every file may be read
by the one who runs a command. What a machine may lack is the matter of `Winnow.Cli.Machine`.
-/

namespace Winnow.Cli

/-- A value as indented JSON on lines of its own. -/
def jsonLines (v : Value) : Except Error String := (· ++ "\n") <$> Output.jsonText .pretty v

/-! ## Patterns -/

def runExtract (source id : String) : Outcome :=
  match Pattern.compile source with
  | .error e => if e.isOwn then .failed 2 e.text else .escaped e
  | .ok pattern => .ofExcept do
    match ← pattern.extract id with
    | none => return .failed 1 (Text.quote id ++ " does not match " ++ Text.quote source)
    | some params =>
      return .printed (← jsonLines (Output.rowValue (params.map fun (k, v) => (k, .text v))))

/-- The identifier that a pattern and assignments make. -/
def buildLine (source : String) (assignments : List String) : Except Error String := do
  let pattern ← Pattern.compile source
  pattern.build (← readAssignments false assignments)

def runBuild (source : String) (assignments : List String) : Outcome :=
  match buildLine source assignments with
  | .ok id => .printed (id ++ "\n")
  | .error e =>
    match e with
    | .missingParameter .. | .parameterValue .. => .failed 1 e.text
    | e => if e.isOwn || e.isValue then .failed 2 e.text else .escaped e

/-! ## Collections -/

/-- The line that describes a collection. -/
def describeCollection (c : Collection) : String :=
  let facets := ["params"] ++ (if c.hasMeta then ["meta"] else []) ++
    if c.hasBody then ["body"] else []
  c.name ++ ": " ++ c.root ++ "/" ++ c.pattern ++ " [" ++ ", ".intercalate facets ++ "]" ++
    (if c.description.isEmpty then "" else " - " ++ c.description) ++ "\n"

def runList (disk : Files.Disk) (path : String) : Outcome :=
  match Files.Catalog.load disk path with
  | .error e =>
    if e.isOwn || e.isFile then .failed 2 ("Failed to load collections: " ++ e.text)
    else .escaped e
  | .ok catalog =>
    if catalog.collections.isEmpty then
      { ending := .exit 0, log := [⟨.warning, "No collections defined in " ++ path⟩] }
    else .printed (String.join (catalog.collections.map describeCollection))

/-! ## Queries -/

/-- A count that may be left to its default. -/
def countValue : Option Nat → Value
  | none => .null
  | some n => .int n

namespace QueryCommand

/-- The output that is asked for: names and their paths, or paths alone. -/
def selection (c : QueryCommand) : Except Error Value := do
  let aliases ← readAssignments false c.aliases
  if !aliases.isEmpty && !c.select.isEmpty then throw (.argument .selectAndAlias)
  if !aliases.isEmpty then return Output.rowValue aliases
  if c.select.isEmpty then throw (.argument .nothingSelected)
  return .list (c.select.map .text)

/-- The query that the command line describes. -/
def prepare (disk : Files.Disk) (c : QueryCommand) : Except Error Query := do
  let catalog ← Files.Catalog.load disk c.catalog
  let q ← catalog.query c.name none none (countValue c.workers)
  let scan ← readAssignments false c.scan
  let filter ← readAssignments true c.filter
  let q ← if scan.isEmpty then pure q else q.scan scan
  let q ← if filter.isEmpty then pure q else q.filter filter
  q.select [← c.selection]

/-- The outcome when the rows cannot be had. -/
def failure (e : Error) : Outcome :=
  match e with
  | .emptyResult _ | .multipleResult _ => .failed 1 e.text
  | e =>
    if e.isSetup then .failed 2 ("Invalid query: " ++ e.text)
    else if e.isOwn || e.isFile then .failed 1 ("Query failed: " ++ e.text)
    else .escaped e

/-- The code for a number of rows. -/
def codeFor (rows : List Row) : Nat := if rows.isEmpty then 1 else 0

/-- The counts of the values of a field. -/
def printCounts (rows : List Row) (field : String) : Except Error Outcome := do
  let counts ← Output.distinct field {} rows
  return { ending := .exit (codeFor rows), output := ← jsonLines (Output.rowsValue counts) }

/-- The rows themselves, unless they are too large. -/
def printRows (c : QueryCommand) (rows : List Row) : Except Error Outcome := do
  match ← Output.Payload.make c.form { limit := c.limit.map Int.ofNat } {} rows with
  | .tooLarge n =>
    return .failed 1
      s!"Result too large to print ({n} rows); narrow the query or pass --limit"
  | .json page =>
    return { ending := .exit (codeFor rows), output := ← jsonLines (Output.rowsValue page) }
  | .csv text _ => return { ending := .exit (codeFor rows), output := text }

/-- Logs how many rows there are and prints them or the counts of a field. -/
def report (c : QueryCommand) (rows : List Row) : Outcome :=
  let body := match c.distinct with
    | some field => if field.isEmpty then c.printRows rows else printCounts rows field
    | none => c.printRows rows
  (Outcome.ofExcept body).after
    ⟨.info, s!"{rows.length} rows from collection '" ++ c.name ++ "'"⟩

/-- Prints a single row. -/
def reportOne (row : Except Error (Option Row)) : Outcome :=
  match row with
  | .error e => failure e
  | .ok none => .failed 1 "No rows matched"
  | .ok (some row) => .ofExcept ((jsonLines (Output.rowValue row)).map .printed)

/-- The only row of a query. If it has another number of rows, the error shows the query. -/
def onlyRow (q : Query) : Except Error Row :=
  q.strictSingle.outcome.mapError fun e =>
    match e with
    | .emptyResult _ | .multipleResult _ =>
      if q.filtered.all fun (_, v) => v.isWritable then e
      else .type (.unconvertible .tooLongToWrite)
    | e => e

/-- The largest number that counts rows of a stream. -/
def maxIndex : Nat := 9223372036854775807

/-- The rows of a stream, up to the limit. A limit beyond all counts is refused before any row is
asked for. -/
def streamedRows (c : QueryCommand) (q : Query) : Except Error (List Row) := do
  let _ ← q.plan
  let _ ← streamLimit (countValue c.concurrency)
  if c.limit.any (maxIndex < ·) then throw (.type (.unconvertible .beyondIndex))
  (q.stream (countValue c.concurrency) c.limit).outcome

/-- Runs a query in the mode of the command. -/
def answer (c : QueryCommand) (q : Query) : Outcome :=
  let all (rows : Except Error (List Row)) := match rows with
    | .error e => failure e
    | .ok rows => c.report rows
  match c.mode with
  | .first => reportOne q.single.outcome
  | .only => reportOne ((onlyRow q).map some)
  | .whole => all q.exec.outcome
  | .stream => all (c.streamedRows q)

def run (disk : Files.Disk) (c : QueryCommand) : Outcome :=
  match c.prepare disk with
  | .ok q => c.answer q
  | .error e =>
    if e.isOwn || e.isFile || e.isValue then .failed 2 ("Invalid query: " ++ e.text)
    else .escaped e

end QueryCommand

/-! ## The program -/

def Command.run (disk : Files.Disk) : Command → Outcome
  | .extract pattern id => runExtract pattern id
  | .build pattern assignments => runBuild pattern assignments
  | .list catalog => runList disk catalog
  | .query c => c.run disk

/-- The outcome of a command line. -/
def run (disk : Files.Disk) (line : List String) : Outcome :=
  match Invocation.read line with
  | .error r => { ending := .refused r }
  | .ok i => (i.command.run disk).restrict i.threshold

end Winnow.Cli
