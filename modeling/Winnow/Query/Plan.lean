import Winnow.Query.Selection

/-!
# Plans

What every item needs, worked out before any item is read: which namespaces, and which of their
fields. A filter and the output share one request for metadata.
-/

namespace Winnow

/-- Equality without conversion: a truth value equals only truth values, numbers are compared as
numbers, and everything else must be of the same type. -/
def strictEq (expected actual : Value) : Bool :=
  match expected, actual with
  | .bool a, .bool b => a == b
  | .bool _, _ => false
  | _, .bool _ => false
  | .int _, .float _ => expected.eq actual
  | .float _, .int _ => expected.eq actual
  | _, _ => expected.typeName == actual.typeName && expected.eq actual

/-- The names in increasing order. -/
def sortNames (names : List String) : List String := names.mergeSort (fun a b => a ≤ b)

/-- A request for fields of a namespace; `none` asks for all. -/
abbrev Request := Option (List String)

/-- What a query needs from each item. -/
structure Plan where
  selection : Selection
  filters : Assoc String Value
  needsParams : Bool
  needsMeta : Bool
  needsBody : Bool
  metaRequest : Request
  bodyRequest : Request
  deriving Repr

namespace Plan

/-- The plan of a selection under filters. -/
def make (selection : Selection) (filters : Assoc String Value) : Except Error Plan := do
  let used := selection.spaces
  let needsMeta := used.contains "meta"
  let needsBody := used.contains "body"
  let metaFields ← if needsMeta then selection.fields "meta" else pure (some [])
  let bodyFields ← if needsBody then selection.fields "body" else pure (some [])
  let metaFields := metaFields.map fun fs => (fs ++ filters.keys).eraseDups
  return {
    selection := selection
    filters := filters
    needsParams := used.contains "params"
    needsMeta := needsMeta
    needsBody := needsBody
    metaRequest := metaFields.map sortNames
    bodyRequest := bodyFields.map sortNames }

def hasFilter (p : Plan) : Bool := !p.filters.isEmpty

/-- Whether metadata has every filtered field with a strictly equal value. -/
def accepts (p : Plan) (facts : Record) : Bool :=
  p.filters.all fun (key, expected) =>
    match facts.field? key with
    | some actual => strictEq expected actual
    | none => false

end Plan

/-- An item with the facets that were resolved. -/
structure ResultRow where
  params : Option Record
  facts : Option Record
  body : Option Record
  deriving Repr

/-- The resolved facets under the names of their namespaces. -/
def ResultRow.spaces (r : ResultRow) : Record :=
  let entry (name : String) (facet : Option Record) : Record :=
    match facet with
    | none => []
    | some fields => [(.text name, .map fields)]
  entry "params" r.params ++ entry "meta" r.facts ++ entry "body" r.body

end Winnow
