import Winnow.Query.Plan
import Winnow.Pattern.Building

/-!
# Resolvers

Where the items of a query come from. A search lists identifiers and reads parameters off them; a
facet gives an item's metadata or body. Both are interfaces: any functions will do. The resolvers
here hold everything in memory.
-/

namespace Winnow

/-- Identifiers one after the other, possibly cut short by an error. -/
structure Listing where
  ids : List String
  fault : Option Error
  deriving Repr

/-- All identifiers, if the listing is not cut short. -/
def Listing.all (l : Listing) : Except Error (List String) :=
  match l.fault with
  | none => .ok l.ids
  | some e => .error e

/-- Lists the identifiers of items and reads their parameters. -/
structure Search where
  names : List String
  listing : Assoc String Value → Listing
  extract : String → Except Error (Assoc String String)

/-- Gives an item's fields: those requested, or all. -/
structure Facet where
  /-- The declared fields, unless any may occur. -/
  fields : Option (List String)
  resolve : String → Request → Except Error Record

/-- The entries of a record under the wanted names, in the order of the names. -/
def Record.restrict (r : Record) (wanted : List String) : Record :=
  Assoc.ofList (wanted.filterMap fun f => (r.field? f).map (.text f, ·))

/-- A record restricted to what is requested, or else to what is declared. -/
def Record.answer (r : Record) (declared : Option (List String)) (request : Request) : Record :=
  match request, declared with
  | some wanted, _ => r.restrict wanted
  | none, some wanted => r.restrict wanted
  | none, none => r

/-- The texts that constraints ask for; a null constraint asks for nothing. -/
def expectedTexts (constraints : Assoc String Value) : Assoc String String :=
  constraints.filterMap fun (k, v) =>
    match v with
    | .null => none
    | v => some (k, v.plain)

/-- Whether parameters have all the expected texts. -/
def meets (expected params : Assoc String String) : Bool :=
  expected.all fun (k, v) => params.get? k == some v

/-- The identifiers among `ids` whose parameters meet what is expected. -/
def select (p : Pattern) (expected : Assoc String String) : List String → Listing
  | [] => ⟨[], none⟩
  | id :: rest =>
    match p.extract id with
    | .error e => ⟨[], some e⟩
    | .ok params =>
      let tail := select p expected rest
      if params.any (meets expected) then ⟨id :: tail.ids, tail.fault⟩ else tail

/-- The parameters of an identifier, which has to match. -/
def Pattern.require (p : Pattern) (id : String) : Except Error (Assoc String String) := do
  match ← p.extract id with
  | some params => return params
  | none => throw (.noMatch id p.source)

/-- A search over identifiers held in memory, in the order given. -/
def memorySearch (p : Pattern) (ids : List String) : Search where
  names := p.paramNames
  listing constraints := select p (expectedTexts constraints) ids
  extract := p.require

/-- Records held in memory; an unknown item has no fields. Items in `broken` cannot be read. -/
def memoryFacet (data : Assoc String Record) (fields : Option (List String))
    (broken : List String) : Facet where
  fields := fields
  resolve id request :=
    if broken.contains id then .error (.malformedFacet id .broken)
    else .ok (((data.get? id).getD []).answer fields request)

end Winnow
