import Winnow.Query.Builder

/-!
# Running queries

A query can be run as a whole, phase by phase: all metadata for the filter first, then the facets of
the items that are left. Or item by item, which stops as soon as enough rows are there.
-/

namespace Winnow.Query

/-- A facet of an item, which is resolved by a call. -/
def resolve (name : FacetName) (facet : Option Facet) (id : String) (request : Request) :
    Logged Record :=
  match facet with
  | none => .silent (.ok [])
  | some f => .call ⟨name, id, request⟩ (f.resolve id request)

def resolveFacts (q : Query) (plan : Plan) (id : String) : Logged Record :=
  resolve .facts q.facts id plan.metaRequest

/-- The parameters of an item as a record. -/
def resolveParams (q : Query) (id : String) : Logged Record :=
  .call ⟨.params, id, none⟩ do
    return (← q.search.extract id).map fun (k, v) => (.text k, .text v)

/-- A facet if it is needed. -/
def onlyIf (needed : Bool) (x : Logged Record) : Logged (Option Record) :=
  if needed then do return some (← x) else return none

/-- The facets of an item that the output needs; metadata that is known already is not resolved
again. -/
def buildRow (q : Query) (plan : Plan) (id : String) (known : Option Record) :
    Logged ResultRow := do
  let params ← onlyIf plan.needsParams (q.resolveParams id)
  let facts ← onlyIf plan.needsMeta (match known with
    | some facts => Logged.pure facts
    | none => q.resolveFacts plan id)
  let body ← onlyIf plan.needsBody (resolve .body q.body id plan.bodyRequest)
  return ⟨params, facts, body⟩

/-- The flat row of an item, or nothing if the filter drops it. -/
def resolveOne (q : Query) (plan : Plan) (id : String) : Logged (Option Row) := do
  if plan.hasFilter then
    let facts ← q.resolveFacts plan id
    if plan.accepts facts then
      let row ← q.buildRow plan id (some facts)
      return some (← .silent (plan.selection.flatten row.spaces))
    else return none
  else
    let row ← q.buildRow plan id none
    return some (← .silent (plan.selection.flatten row.spaces))

/-- The items that pass the filter, and their metadata as far as it was read. -/
def survivors (q : Query) (plan : Plan) (ids : List String) :
    Logged (List String × Assoc String Record) :=
  if plan.hasFilter then do
    let facts ← Logged.each (q.resolveFacts plan) ids
    -- Metadata that let an item pass is kept for its row.
    let kept := (ids.zip facts).filter fun (_, f) => plan.accepts f
    return (kept.map Prod.fst, Assoc.ofList kept)
  else return (ids, [])

/-- All rows, in the order of the listing. -/
def exec (q : Query) : Logged (List Row) := do
  let plan ← .silent q.plan
  let ids ← .silent (q.search.listing q.scanned).all
  let (kept, cache) ← q.survivors plan ids
  let rows ← Logged.each (fun id => q.buildRow plan id (cache.get? id)) kept
  .silent (rows.mapM fun row => plan.selection.flatten row.spaces)

/-- The first `count` rows of a listing; no item behind the last of them is touched. -/
def firstRows (q : Query) (plan : Plan) (fault : Option Error) :
    Nat → List String → Logged (List Row)
  | 0, _ => return []
  | _ + 1, [] =>
    match fault with
    | none => return []
    | some e => .silent (.error e)
  | count + 1, id :: rest => do
    match ← q.resolveOne plan id with
    | none => firstRows q plan fault (count + 1) rest
    | some row => return row :: (← firstRows q plan fault count rest)

/-- The first rows of the query. -/
def first (q : Query) (count : Nat) : Logged (List Row) := do
  let plan ← .silent q.plan
  let listing := q.search.listing q.scanned
  q.firstRows plan listing.fault count listing.ids

/-- The first row, if there is one. -/
def single (q : Query) : Logged (Option Row) := do
  return (← q.first 1).head?

/-- The only row. -/
def strictSingle (q : Query) : Logged Row := do
  match ← q.first 2 with
  | [] => .silent (.error (.emptyResult q.describe))
  | [row] => return row
  | _ => .silent (.error (.multipleResult q.describe))

end Winnow.Query
