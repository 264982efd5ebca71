import Winnow.Query.Resolver

/-!
# Logged computations

Resolving an item costs calls of resolvers. A logged computation is its outcome together with the
calls that it made, in order; an error ends it and keeps the calls made so far.
-/

namespace Winnow

/-- The facets of an item, in increasing order of cost. -/
inductive FacetName
  | params
  | facts
  | body
  deriving DecidableEq, Repr

/-- The name of the facet's namespace. -/
def FacetName.text : FacetName → String
  | .params => "params"
  | .facts => "meta"
  | .body => "body"

/-- A call of a resolver. -/
structure Call where
  facet : FacetName
  id : String
  request : Request
  deriving DecidableEq, Repr

/-- An outcome and the calls that led to it. -/
structure Logged (α : Type) where
  calls : List Call
  outcome : Except Error α

namespace Logged

variable {α β : Type}

def pure (a : α) : Logged α := ⟨[], .ok a⟩

def bind (x : Logged α) (f : α → Logged β) : Logged β :=
  match x.outcome with
  | .error e => ⟨x.calls, .error e⟩
  | .ok a => ⟨x.calls ++ (f a).calls, (f a).outcome⟩

instance : Monad Logged where
  pure := Logged.pure
  bind := Logged.bind

/-- A computation without calls. -/
def silent (r : Except Error α) : Logged α := ⟨[], r⟩

/-- A single call. -/
def call (c : Call) (r : Except Error α) : Logged α := ⟨[c], r⟩

/-- One computation per element, in order. -/
def each (f : α → Logged β) : List α → Logged (List β)
  | [] => Logged.pure []
  | a :: rest => do
    let b ← f a
    let bs ← each f rest
    return b :: bs

end Logged

end Winnow
