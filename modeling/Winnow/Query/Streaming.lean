import Winnow.Query.Execution

/-!
# Streaming

A stream resolves several items at a time. Every item in flight holds one of a fixed number of
slots, from the moment its identifier is pulled from the listing until its row is delivered or
dropped. Identifiers are pulled as long as slots are free; then some of the items in flight become
ready, in any order, and are delivered one by one. The consumer may close the stream at any row.

The state of a stream and its moves are defined for every order of completion; `Query.stream` lets
the items become ready in the order in which they were pulled.
-/

namespace Winnow

/-- An item that was pulled, and how its resolution comes out. -/
structure Ticket where
  id : String
  work : Logged (Option Row)

/-- How far a stream has come. -/
inductive StreamStatus
  | running
  | finished
  | failed (e : Error)
  /-- The consumer wants no more. -/
  | closed
  deriving DecidableEq, Repr

/-- The state of a stream. -/
structure Stream where
  /-- Identifiers that were not pulled yet, and the error that cuts the listing short. -/
  remaining : List String
  fault : Option Error
  exhausted : Bool
  /-- Slots that nothing holds. -/
  free : Nat
  inFlight : List Ticket
  ready : List Ticket
  /-- Rows that were delivered, and the calls of all items that were pulled. -/
  rows : List Row
  calls : List Call
  status : StreamStatus

namespace Stream

/-- A stream before its first move. A consumer that wants no row closes it at once. -/
def start (listing : Listing) (limit : Nat) (wanted : Option Nat) : Stream :=
  { remaining := listing.ids
    fault := listing.fault
    exhausted := false
    free := limit
    inFlight := []
    ready := []
    rows := []
    calls := []
    status := if wanted = some 0 then .closed else .running }

/-- Pulls the next identifier and puts the item in flight. At the end of the listing the slot stays
free. -/
def pull (work : String → Logged (Option Row)) (s : Stream) : Stream :=
  match s.remaining with
  | id :: rest =>
    { s with
      remaining := rest
      free := s.free - 1
      inFlight := s.inFlight ++ [⟨id, work id⟩]
      calls := s.calls ++ (work id).calls }
  | [] =>
    match s.fault with
    | none => { s with exhausted := true }
    | some e => { s with exhausted := true, status := .failed e }

/-- The items in flight at the given positions become ready. -/
def complete (isDone : Nat → Bool) (s : Stream) : Stream :=
  let numbered := s.inFlight.zipIdx
  { s with
    inFlight := (numbered.filter fun (_, i) => !isDone i).map Prod.fst
    ready := (numbered.filter fun (_, i) => isDone i).map Prod.fst }

/-- Delivers the row of a ready item and frees its slot. An item that was filtered out gives no row;
an item that failed ends the stream, and so does the row that the consumer wanted last. -/
def deliver (wanted : Option Nat) (s : Stream) : Stream :=
  match s.ready with
  | [] => s
  | t :: rest =>
    let s := { s with ready := rest, free := s.free + 1 }
    match t.work.outcome with
    | .error e => { s with status := .failed e }
    | .ok none => s
    | .ok (some row) =>
      let rows := s.rows ++ [row]
      { s with rows := rows, status := if wanted = some rows.length then .closed else s.status }

/-- One move: delivery goes before pulling, pulling before waiting. `isDone` says which items in
flight are ready after a wait. -/
def move (work : String → Logged (Option Row)) (wanted : Option Nat) (isDone : Nat → Bool)
    (s : Stream) : Stream :=
  if !s.ready.isEmpty then s.deliver wanted
  else if !s.exhausted && s.free > 0 then s.pull work
  else if s.inFlight.isEmpty then { s with status := .finished }
  else s.complete isDone

/-- Moves until the stream has ended, the oldest item in flight becoming ready first. -/
def run (work : String → Logged (Option Row)) (wanted : Option Nat) : Nat → Stream → Stream
  | 0, s => s
  | fuel + 1, s =>
    match s.status with
    | .running => run work wanted fuel (s.move work wanted (· == 0))
    | _ => s

/-- A bound on the moves that are left: every move uses up one. -/
def weight (s : Stream) : Nat :=
  3 * s.remaining.length + 2 * s.inFlight.length + s.ready.length +
    (if s.exhausted then 0 else 1) + 1

/-- The outcome of a stream that has ended. -/
def outcome (s : Stream) : Logged (List Row) :=
  ⟨s.calls, match s.status with
    | .failed e => .error e
    | _ => .ok s.rows⟩

end Stream

namespace Query

/-- The rows of the query as a consumer of a stream gets them, all or as many as wanted. -/
def stream (q : Query) (limit : Value) (wanted : Option Nat) : Logged (List Row) := do
  let plan ← .silent q.plan
  let limit ← .silent (streamLimit limit)
  let s := Stream.start (q.search.listing q.scanned) limit wanted
  (Stream.run (q.resolveOne plan) wanted s.weight s).outcome

end Query

end Winnow
