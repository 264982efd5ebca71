import Winnow.Files.Walk
import Winnow.Pattern.Template

/-!
# Search among files

The items of a collection are the files under its root whose path from the root fits a pattern.
Their identifiers are absolute paths.
-/

namespace Winnow.Files

/-- The files under a root that fit a pattern. -/
structure FileSearch where
  disk : Disk
  /-- An absolute path without links. -/
  root : String
  pattern : Pattern

namespace FileSearch

/-- A search under a directory. -/
def make (disk : Disk) (root : String) (pattern : Pattern) : Except Error FileSearch := do
  return ⟨disk, ← disk.realPath root, pattern⟩

/-- What all identifiers begin with. -/
def head (s : FileSearch) : String :=
  if s.root.endsWith "/" then s.root else s.root ++ "/"

def describe (s : FileSearch) : String :=
  "GlobSearchResolver(" ++ Text.quote s.root ++ ", " ++ Text.quote s.pattern.source ++ ")"

/-- The files that the alternatives of a template lead to, each once. -/
def candidates (s : FileSearch) (template : Pattern.Template) : Listing :=
  let l := concat (template.alternatives.map fun a =>
    s.disk.walk s.root (Segment.ofPattern (pieces a)))
  { l with ids := Pattern.distinct l.ids }

/-- Whether two mappings have the same entries. -/
def sameEntries (a b : Assoc String String) : Bool :=
  a.length == b.length && a.all fun (k, v) => b.get? k == some v

/-- The only path that fits when every parameter has a known value, if there is one. -/
def pinnedPath? (s : FileSearch) (constraints : Assoc String Value) :
    Except Error (Option String) := do
  match s.pattern.build constraints with
  | .error (.parameterValue ..) => return none
  | .error (.missingParameter ..) => return none
  | .error e => throw e
  | .ok path =>
    match ← s.pattern.extract path with
    | some params =>
      return if sameEntries params (expectedTexts constraints) then some path else none
    | none => return none

/-- The constraints that ask for something. -/
def knownValues (constraints : Assoc String Value) : Assoc String Value :=
  constraints.filter fun (_, v) =>
    match v with
    | .null => false
    | _ => true

/-- The paths from the root that meet the constraints. -/
def paths (s : FileSearch) (constraints : Assoc String Value) : Listing :=
  let known := knownValues constraints
  let template := s.pattern.template known
  if template.pinned then
    match s.pinnedPath? known with
    | .error e => ⟨[], some e⟩
    | .ok none => nothing
    | .ok (some path) =>
      let l := s.candidates template
      { l with ids := l.ids.filter (· == path) }
  else
    let l := s.candidates template
    let kept := select s.pattern (expectedTexts known) l.ids
    ⟨kept.ids, kept.fault <|> l.fault⟩

/-- The path from the root that an identifier names; an absolute path elsewhere names none. -/
def relative? (s : FileSearch) (id : String) : Option String :=
  match Text.dropHead? s.head.toList id.toList with
  | some rest => some (String.ofList rest)
  | none => if isAbsolute id then none else some id

/-- The parameters of an identifier. -/
def extract (s : FileSearch) (id : String) : Except Error (Assoc String String) := do
  let params ← match s.relative? id with
    | none => pure none
    | some path => s.pattern.extract path
  match params with
  | some params => return params
  | none => throw (.noMatch id s.pattern.source)

/-- The identifier that parameters make up. -/
def build (s : FileSearch) (params : Assoc String Value) : Except Error String := do
  return s.head ++ (← s.pattern.build params)

/-- The search as queries see it. -/
def search (s : FileSearch) : Search where
  names := s.pattern.paramNames
  listing constraints :=
    let l := s.paths constraints
    { l with ids := l.ids.map (s.head ++ ·) }
  extract := s.extract

end FileSearch

end Winnow.Files
