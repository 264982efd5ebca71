import Winnow.Query.Path
import Winnow.Error

/-!
# Flat rows

A row of namespaces becomes a flat row. With a list of paths each value is named by the last segment
of its path, with aliases by its alias. No two paths may claim one name.
-/

namespace Winnow

/-- The first path that claims a name of a different path before it: the name and both paths. -/
def clashFrom (owners : Assoc String String) : List String → Option (String × List String)
  | [] => none
  | path :: rest =>
    let key := Path.leaf path
    match owners.get? key with
    | some owner => if owner = path then clashFrom owners rest else some (key, [owner, path])
    | none => clashFrom (owners.insert key path) rest

/-- The first output name that two distinct paths share. -/
def clash? (paths : List String) : Option (String × List String) := clashFrom [] paths

/-- The flat row of the given paths. -/
def flatten (row : Record) (paths : List String) : Except Error Row :=
  let expanded := Path.expand row paths
  match clash? expanded with
  | some (key, owners) => .error (.collision key owners)
  | none => .ok (Assoc.ofList (expanded.map fun p => (Path.leaf p, Path.read row p)))

/-- A flat row under construction and the path that each of its names came from. -/
structure Placement where
  row : Row
  sources : Assoc String String

/-- Puts the value of a path under a name. -/
def Placement.put (source : Record) (p : Placement) (entry : String × String) :
    Except Error Placement :=
  let (key, path) := entry
  match p.sources.get? key with
  | some owner =>
    if owner = path then .ok { p with row := p.row.insert key (Path.read source path) }
    else .error (.collision key [owner, path])
  | none =>
    .ok ⟨p.row.insert key (Path.read source path), p.sources.insert key path⟩

/-- The names that an alias gives: itself, or those of all fields of a wildcard. -/
def aliasEntries (row : Record) (entry : String × String) : List (String × String) :=
  let (name, path) := entry
  if Path.isWildcard path then (Path.expandOne row path).map fun p => (Path.leaf p, p)
  else [(name, path)]

/-- The flat row of the given aliases. -/
def flattenAliased (row : Record) (aliases : Assoc String String) : Except Error Row := do
  let placed ← (aliases.flatMap (aliasEntries row)).foldlM (Placement.put row) ⟨[], []⟩
  return placed.row

end Winnow
