import Winnow.Query.Flatten

/-!
# Selections

What a query puts out: a list of dotted paths, or aliases for paths. A selection knows which fields
of which namespaces it needs.
-/

namespace Winnow

/-- The shape of the output of a query. -/
inductive Selection
  | paths (paths : List String)
  | aliases (entries : List (String × String))
  deriving DecidableEq, Repr

/-- The texts among values, each once; a value that is no text is an error. -/
def distinctTexts (seen : List String) : List Value → Except Error (List String)
  | [] => .ok seen
  | .text s :: rest => distinctTexts (if seen.contains s then seen else seen ++ [s]) rest
  | v :: _ => .error (.setup (.pathNotText v.quoted))

namespace Selection

/-- A selection of paths. -/
def ofPaths (values : List Value) : Except Error Selection := do
  let paths ← distinctTexts [] values
  if paths.isEmpty then throw (.setup .emptySelection)
  return .paths paths

/-- A selection from arguments: a single mapping of aliases, a single list of paths, or paths. -/
def ofArguments : List Value → Except Error Selection
  | [.map entries] =>
    if entries.isEmpty then .error (.setup .emptySelection)
    else .ok (.aliases (entries.map fun (k, v) => (k.plain, v.plain)))
  | [.list items] => ofPaths items
  | [.tuple items] => ofPaths items
  | values => ofPaths values

def isAliased : Selection → Bool
  | .paths _ => false
  | .aliases _ => true

/-- The paths in order. -/
def allPaths : Selection → List String
  | .paths ps => ps
  | .aliases es => es.map Prod.snd

/-- The namespaces in order of first mention. -/
def spaces (s : Selection) : List String := (s.allPaths.map Path.space).eraseDups

/-- The fields of a namespace that are mentioned by paths, behind those in `seen`. -/
def fieldsFrom (space : String) (seen : List String) :
    List String → Except Error (Option (List String))
  | [] => .ok (some seen)
  | path :: rest =>
    if Path.space path ≠ space then fieldsFrom space seen rest
    else if path = Path.wildcard space then .ok none
    else match Path.segments path with
      | _ :: field :: _ =>
        fieldsFrom space (if seen.contains field then seen else seen ++ [field]) rest
      | _ => .error (.type .noSecondPart)

/-- The fields of a namespace that the selection needs; `none` stands for all. -/
def fields (s : Selection) (space : String) : Except Error (Option (List String)) :=
  fieldsFrom space [] s.allPaths

/-- The flat row of a row of namespaces. -/
def flatten (s : Selection) (row : Record) : Except Error Row :=
  match s with
  | .paths ps => Winnow.flatten row ps
  | .aliases es => flattenAliased row (Assoc.ofList es)

/-- The selection in messages. -/
def describe : Selection → String
  | .paths ps => ", ".intercalate ps
  | .aliases es => ", ".intercalate (es.map fun (a, p) => a ++ "=" ++ p)

end Selection

/-- The namespace of a path and its field, which is absent for a wildcard. -/
def splitPath (path : String) : Except Error (String × Option String) :=
  let parts := Path.segments path
  match parts with
  | space :: field :: rest =>
    if parts.any String.isEmpty then .error (.setup (.invalidPath path))
    else if Path.isWildcard path then
      if rest.isEmpty then .ok (space, none) else .error (.setup (.nestedWildcard path))
    else .ok (space, some field)
  | _ => .error (.setup (.invalidPath path))

end Winnow
