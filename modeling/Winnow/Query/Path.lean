import Winnow.Value.Display
import Winnow.Text.Lines

/-!
# Dotted paths

A path such as `meta.author.name` names a value inside an item: first the namespace, then the keys
of nested mappings. The path of a namespace followed by `.*` stands for all its fields.
-/

namespace Winnow.Path

/-- The segments between the dots. -/
def segments (path : String) : List String := Text.pieces '.' path

/-- The namespace that a wildcard path ranges over. -/
def wildcardSpace? (path : String) : Option String :=
  (Text.dropHead? ['*', '.'] path.toList.reverse).map fun rest => String.ofList rest.reverse

def isWildcard (path : String) : Bool := (wildcardSpace? path).isSome

/-- The wildcard of a namespace. -/
def wildcard (space : String) : String := space ++ ".*"

/-- The first segment: the namespace. -/
def space (path : String) : String := (segments path).head?.getD ""

/-- The last segment: the name in a flat row. -/
def leaf (path : String) : String := (segments path).getLast?.getD ""

/-- One step into a mapping; what is not there is null. -/
def enter (v : Value) (key : String) : Value := (v.field? key).getD .null

/-- The value that a path names in a row of namespaces. -/
def read (row : Record) (path : String) : Value := (segments path).foldl enter (.map row)

/-- The path of a field of a namespace. -/
def ofField (space : String) (key : Value) : String := space ++ "." ++ key.plain

/-- The paths that a path stands for in a row: one per field for a wildcard over a mapping, none
for a wildcard over anything else. -/
def expandOne (row : Record) (path : String) : List String :=
  match wildcardSpace? path with
  | none => [path]
  | some space =>
    match row.field? space with
    | some (.map fields) => fields.map fun (k, _) => ofField space k
    | _ => []

/-- Replaces every wildcard by the fields it stands for. -/
def expand (row : Record) (paths : List String) : List String := paths.flatMap (expandOne row)

end Winnow.Path
