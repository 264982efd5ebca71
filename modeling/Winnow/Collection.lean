import Winnow.Value.Display
import Winnow.Decimal.Integer
import Winnow.Pattern.Building

/-!
# Collections

A catalog defines collections: a name, a directory, a pattern for the paths in it, and which facets
its items have. It is read from a document; every entry is checked before any of them is used. A
name, a pattern, a root, a description or a field need not be a text: its text is taken.
-/

namespace Winnow

/-- A collection of items. -/
structure Collection where
  name : String
  /-- The directory, as an absolute path. -/
  root : String
  pattern : String
  hasMeta : Bool
  /-- The declared metadata fields, unless any may occur. -/
  metaFields : Option (List String)
  /-- The bytes of a first read. -/
  budget : Int
  hasBody : Bool
  description : String
  deriving DecidableEq, Repr

namespace Collection

/-- The budget of a collection that gives none. -/
def defaultBudget : Int := 4096

/-- The integer that a text stands for; `shown` is the text in messages. -/
def countOfText (shown : String) (s : List Char) : Except Error Int :=
  match Integer.read 10 s with
  | .ok n => .ok n
  | .error .malformed => .error (.argument (.conversion (.integer 10 shown)))
  | .error (.tooManyDigits n) => .error (.argument (.conversion (.tooManyDigits n)))

/-- A value as an integer: numbers are cut off at the point, texts are read. A byte outside ASCII is
no part of a number. -/
def countOf (v : Value) : Except Error Int :=
  match v with
  | .int i => .ok i
  | .bool b => .ok b.toNat
  | .float x =>
    match x.truncate? with
    | some i => .ok i
    | none =>
      if x.isNaN then .error (.argument (.conversion .notANumber)) else .error (.type .tooLarge)
  | .text s => countOfText v.quoted s.toList
  | .bytes bs => countOfText v.quoted (bs.map fun b => if b < 0x80 then Char.ofNat b.toNat else '?')
  | _ => .error (.type .unsuitable)

/-- A text of a value, if its integers can be written. -/
def written (text : Value → String) (v : Value) : Except Error String :=
  if v.isWritable then .ok (text v) else .error (.type (.unconvertible .tooLongToWrite))

/-- The name that an entry gives. -/
def nameOf (entry : Value) : Except Error String := do
  let name ← written Value.plain ((entry.field? "name").getD (.text ""))
  return String.ofList (Text.strip name.toList)

/-- What the metadata of a collection is set to: whether there is any, the declared fields and the
budget. -/
def readMeta (name : String) (v : Value) : Except Error (Bool × Option (List String) × Int) :=
  match v with
  | .null => .ok (true, none, defaultBudget)
  | .bool b => .ok (b, none, defaultBudget)
  | .map entries => do
    let fields ← match (Record.field? "fields" entries).getD .null with
      | .null => pure none
      | .list fs => pure (some fs)
      | _ => throw (.setup (.fieldsNotList name))
    let budget ← countOf ((Record.field? "max_bytes" entries).getD (.int defaultBudget))
    let names ← match fields with
      | none => pure none
      | some fs => some <$> fs.mapM (written Value.plain)
    return (true, names, budget)
  | _ => .error (.setup (.metaNotMapping name))

/-- Reads an entry of a catalog behind the collections `done`. `place` finds the directory that a
root names. -/
def ofEntry (place : String → Except Error String) (done : List Collection) (entry : Value) :
    Except Error Collection := do
  let .map entries := entry | throw (.type .noEntries)
  let get (k : String) (default : Value) := (Record.field? k entries).getD default
  let name ← nameOf entry
  let pattern := get "pattern" .null
  let root := get "root" .null
  if name.isEmpty || !pattern.isTruthy || !root.isTruthy then
    throw (.setup (.incompleteCollection (← written Value.quoted entry)))
  if done.any (·.name == name) then throw (.setup (.duplicateCollection name))
  -- The pattern is compiled to see that it can be; its text is what is kept.
  let pattern ← written Value.plain pattern
  let _ ← Pattern.compile pattern
  let (hasMeta, metaFields, budget) ← readMeta name (get "meta" .null)
  let root ← place (← written Value.plain root)
  let description ← written Value.plain (get "description" (.text ""))
  return { name, root, pattern, hasMeta, metaFields, budget,
           hasBody := (get "body" (.bool true)).isTruthy, description }

/-- Reads the entries of a catalog behind the collections `done`. -/
def ofEntries (place : String → Except Error String) (done : List Collection) :
    List Value → Except Error (List Collection)
  | [] => .ok done
  | entry :: rest =>
    match ofEntry place done entry with
    | .error e => .error e
    | .ok c => ofEntries place (done ++ [c]) rest

/-- Reads the collections of a catalog. A document that holds nothing defines none; collections are
listed, and what is neither a list nor empty cannot define any. -/
def ofDocument (place : String → Except Error String) (document : Value) :
    Except Error (List Collection) :=
  if !document.isTruthy then .ok []
  else match document with
    | .map entries =>
      let listed := (Record.field? "collections" entries).getD .null
      if !listed.isTruthy then .ok []
      else match listed with
        | .list items => ofEntries place [] items
        | .text _ | .bytes _ | .set _ | .map _ | .tuple _ => .error (.type .noEntries)
        | _ => .error (.type .unsuitable)
    | _ => .error (.type .noEntries)

end Collection

end Winnow
