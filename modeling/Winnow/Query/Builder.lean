import Winnow.Query.Log

/-!
# Queries

A query is built step by step: constraints on parameters, filters on metadata, and a selection.
Each step checks its input and leaves the query before it untouched, so that one query can be
continued in several ways.
-/

namespace Winnow

/-- A count that has to be a positive integer; null stands for the default. -/
def positiveCount (label : String) (default : Nat) : Value → Except Error Nat
  | .null => .ok default
  | .int i => if i < 1 then .error (.argument (.notPositive label (toString i))) else .ok i.toNat
  | v => .error (.argument (.notInteger label v.quoted))

/-- How many items a stream may have in flight. -/
def streamLimit (v : Value) : Except Error Nat := positiveCount "concurrency_limit" 50 v

/-- How many workers resolve the items of a whole query. -/
def workerCount (v : Value) : Except Error Nat := positiveCount "max_workers" 8 v

/-- A query over a search and, where given, resolvers for metadata and bodies. -/
structure Query where
  search : Search
  facts : Option Facet
  body : Option Facet
  workers : Nat
  scanned : Assoc String Value
  filtered : Assoc String Value
  selected : Option Selection

namespace Query

/-- A query without constraints. -/
def new (search : Search) (facts body : Option Facet) (workers : Value) : Except Error Query := do
  return ⟨search, facts, body, ← workerCount workers, [], [], none⟩

/-- The query in messages. -/
def describe (q : Query) : String :=
  "QueryEngine(scan=" ++ quotedAssoc q.scanned ++ ", filter=" ++ quotedAssoc q.filtered ++
    ", select=" ++ quotedOption (q.selected.map Selection.describe) ++ ")"

/-- An error for the first name that is not known. -/
def checkNames (space : String) (known : List String) : List String → Except Error Unit
  | [] => .ok ()
  | name :: rest =>
    if known.contains name then checkNames space known rest
    else .error (.unknownField space name (some (sortNames known)))

/-- Adds constraints on parameters; a later value for a name replaces the earlier one. -/
def scan (q : Query) (constraints : Assoc String Value) : Except Error Query := do
  checkNames "params" q.search.names constraints.keys
  return { q with scanned := q.scanned.merge constraints }

/-- Adds filters on metadata; a later value for a name replaces the earlier one. -/
def filter (q : Query) (constraints : Assoc String Value) : Except Error Query := do
  match q.facts with
  | none => throw (.setup .noMetaResolver)
  | some facet =>
    if let some declared := facet.fields then checkNames "meta" declared constraints.keys
    return { q with filtered := q.filtered.merge constraints }

/-- The namespaces of an item. -/
def spaceNames : List String := ["params", "meta", "body"]

/-- Whether a namespace has a resolver. -/
def hasResolver (q : Query) (space : String) : Bool :=
  if space = "params" then true else if space = "meta" then q.facts.isSome else q.body.isSome

/-- The declared fields of a namespace. -/
def knownFields (q : Query) (space : String) : Option (List String) :=
  if space = "params" then some q.search.names
  else if space = "meta" then q.facts.bind Facet.fields
  else q.body.bind Facet.fields

/-- Checks a path of a selection. -/
def checkPath (q : Query) (path : String) : Except Error Unit := do
  let (space, field?) ← splitPath path
  unless spaceNames.contains space do
    throw (.unknownField "namespace" space (some (sortNames spaceNames)))
  unless q.hasResolver space do throw (.setup (.noResolver path space))
  match field?, q.knownFields space with
  | some field, some known =>
    unless known.contains field do
      throw (.unknownField space field (some (sortNames known)))
  | _, _ => return ()

/-- A row with nothing but the declared fields, to find clashes before any item is read. -/
def shape (q : Query) (s : Selection) : Record :=
  s.spaces.filterMap fun space =>
    (q.knownFields space).map fun known =>
      (.text space, .map (Assoc.ofList (known.map fun f => (.text f, .null))))

/-- Checks all paths of a selection one by one and then together. -/
def checkSelection (q : Query) (s : Selection) : Except Error Unit := do
  s.allPaths.forM q.checkPath
  let _ ← s.flatten (q.shape s)

/-- Declares the output. -/
def select (q : Query) (arguments : List Value) : Except Error Query := do
  let s ← Selection.ofArguments arguments
  q.checkSelection s
  return { q with selected := some s }

/-- The plan of the query, which needs a selection. -/
def plan (q : Query) : Except Error Plan :=
  match q.selected with
  | none => .error (.setup .noSelection)
  | some s => Plan.make s q.filtered

end Query

end Winnow
