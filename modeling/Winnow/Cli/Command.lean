import Winnow.Cli.Words
import Winnow.Decimal.Integer
import Winnow.Output.Payload

/-!
# Commands

What a command line asks for: matching an identifier, building one, listing the collections of a
catalog, or a query over one of them. Options before the command say how much is logged.
-/

namespace Winnow.Cli

/-- How grave a message is. -/
inductive Level
  | debug
  | info
  | warning
  | error
  deriving DecidableEq, Repr

def Level.rank : Level → Nat
  | .debug => 0
  | .info => 1
  | .warning => 2
  | .error => 3

def Level.name : Level → String
  | .debug => "DEBUG"
  | .info => "INFO"
  | .warning => "WARNING"
  | .error => "ERROR"

/-- How the rows of a query are gone through. -/
inductive Mode
  /-- All of them at once. -/
  | whole
  /-- The first one only. -/
  | first
  /-- The one and only. -/
  | only
  /-- One by one. -/
  | stream
  deriving DecidableEq, Repr

/-- The file that defines the collections if no other is named. -/
def defaultCatalog : String := "config/collections.yaml"

/-- A query as the command line gives it. -/
structure QueryCommand where
  name : String
  catalog : String := defaultCatalog
  scan : List String := []
  filter : List String := []
  select : List String := []
  aliases : List String := []
  mode : Mode := .whole
  concurrency : Option Nat := none
  workers : Option Nat := none
  limit : Option Nat := none
  form : Output.Form := .json
  distinct : Option String := none
  deriving DecidableEq, Repr

inductive Command
  | extract (pattern id : String)
  | build (pattern : String) (assignments : List String)
  | list (catalog : String)
  | query (q : QueryCommand)
  deriving DecidableEq, Repr

/-- The file that defines the collections of a command. -/
def Command.catalog? : Command → Option String
  | .extract .. => none
  | .build .. => none
  | .list path => some path
  | .query c => some c.catalog

/-- A command and the least level of the messages that are logged. -/
structure Invocation where
  threshold : Level
  command : Command
  deriving DecidableEq, Repr

/-! ## Options -/

/-- The options of a query. -/
inductive QueryOption
  | collections
  | scan
  | filter
  | select
  | name
  | single
  | strictSingle
  | stream
  | concurrency
  | workers
  | limit
  | format
  | distinct
  deriving DecidableEq, Repr

namespace QueryOption

def names : List (String × QueryOption) :=
  [("--collections", .collections), ("--scan", .scan), ("--filter", .filter),
   ("--select", .select), ("--alias", .name), ("--single", .single),
   ("--strict-single", .strictSingle), ("--stream", .stream), ("--concurrency", .concurrency),
   ("--workers", .workers), ("--limit", .limit), ("--format", .format),
   ("--distinct", .distinct)]

/-- The modes are chosen by options without value. -/
def takesValue : QueryOption → Bool
  | .single => false
  | .strictSingle => false
  | .stream => false
  | _ => true

end QueryOption

/-- A positive number. -/
def readPositive (s : String) : Except Refusal Nat :=
  match Integer.read 10 s.toList with
  | .ok n => if n < 1 then .error .usage else .ok n.toNat
  | .error _ => .error .usage

def readForm (s : String) : Except Refusal Output.Form :=
  (Output.Form.ofName s).mapError fun _ => .usage

namespace QueryCommand

/-- Chooses a mode; two different ones exclude each other. -/
def choose (q : QueryCommand) (m : Mode) : Except Refusal QueryCommand :=
  if q.mode = .whole ∨ q.mode = m then .ok { q with mode := m } else .error .usage

/-- The query with one more option. -/
def apply (q : QueryCommand) (o : QueryOption) (value : Option String) :
    Except Refusal QueryCommand :=
  let v := value.getD ""
  match o with
  | .collections => .ok { q with catalog := v }
  | .scan => .ok { q with scan := q.scan ++ [v] }
  | .filter => .ok { q with filter := q.filter ++ [v] }
  | .select => .ok { q with select := q.select ++ [v] }
  | .name => .ok { q with aliases := q.aliases ++ [v] }
  | .single => q.choose .first
  | .strictSingle => q.choose .only
  | .stream => q.choose .stream
  | .concurrency => do return { q with concurrency := some (← readPositive v) }
  | .workers => do return { q with workers := some (← readPositive v) }
  | .limit => do return { q with limit := some (← readPositive v) }
  | .format => do return { q with form := ← readForm v }
  | .distinct => .ok { q with distinct := some v }

end QueryCommand

/-! ## Reading -/

/-- For commands whose only option is the wish for help. -/
def noOption : Unit → Empty → Option String → Except Refusal Unit
  | _, o, _ => nomatch o

/-- Reads the words behind the name of a command. -/
def readCommand (name : String) (line : List String) : Except Refusal Command :=
  if name = "match" then do
    match ← readWords [] (fun _ => false) ⟨2, false⟩ noOption () line with
    | ([pattern, id], ()) => return .extract pattern id
    | _ => throw .usage
  else if name = "build" then do
    match ← readWords [] (fun _ => false) ⟨1, true⟩ noOption () line with
    | (pattern :: assignments, ()) => return .build pattern assignments
    | _ => throw .usage
  else if name = "list" then do
    let step (_ : String) (_ : Unit) (v : Option String) : Except Refusal String :=
      .ok (v.getD "")
    let (_, catalog) ← readWords [("--collections", ())] (fun _ => true) ⟨0, false⟩ step
      defaultCatalog line
    return .list catalog
  else if name = "query" then do
    match ← readWords QueryOption.names QueryOption.takesValue ⟨1, false⟩ QueryCommand.apply
        { name := "" } line with
    | ([name], q) => return .query { q with name := name }
    | _ => throw .usage
  else .error .usage

/-- The options before a command. -/
inductive LogOption
  | verbose
  | warningsOnly
  | errorsOnly
  deriving DecidableEq, Repr

def LogOption.names : List (String × LogOption) :=
  [("--verbose", .verbose), ("--warnings-only", .warningsOnly), ("--errors-only", .errorsOnly)]

/-- The least level that is logged; the option that logs less goes before. -/
def threshold (given : List LogOption) : Level :=
  if given.contains .errorsOnly then .error
  else if given.contains .warningsOnly then .warning
  else if given.contains .verbose then .debug
  else .info

/-- Reads options until the name of a command, which takes the rest of the line. `words` are the
words of `line`. -/
def readOptions (given : List LogOption) (surplus : Bool) :
    List (Word LogOption) → List String → Except Refusal Invocation
  | .option o none :: words, _ :: line => readOptions (o :: given) surplus words line
  | .help false :: _, _ => .error .help
  | .unknown _ :: words, _ :: line => readOptions given true words line
  | .plain name :: _, _ :: line => do
    let command ← readCommand name line
    if surplus then throw .usage
    return ⟨threshold given, command⟩
  | _, _ => .error .usage

/-- Reads a command line. All of its words are told apart as options of the whole line first, also
those of the command. -/
def Invocation.read (line : List String) : Except Refusal Invocation := do
  readOptions [] false (← words (OptionTable.make LogOption.names) line) line

end Winnow.Cli
