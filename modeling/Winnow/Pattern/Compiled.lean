import Winnow.Pattern.Tokens
import Winnow.Pattern.Layout
import Winnow.Regex.Matching

/-!
# Compiled patterns

The layout of a pattern becomes one expression, whose groups are the parameters, and a second one
without groups that only decides whether a path fits. Constraints are read into the expression in
place: the groups inside them are numbered together with the parameters.
-/

namespace Winnow

/-- A pattern ready for use. -/
structure Pattern where
  source : String
  parts : List Pattern.Part
  params : List Pattern.Param
  matcher : Regex.Node
  /-- The groups of the matcher that have names, among them the parameters. -/
  groups : Assoc String Nat
  validator : Regex.Node
  constraints : Assoc String Regex.Node
  deriving Repr

namespace Pattern

open Regex

/-- A non-empty text without separators, preferably short. -/
def segment : Node :=
  .loop .lazy 1 none (.set ⟨false, false⟩ true [.range separator.toNat separator.toNat])

/-- Any text within a line, preferably long. -/
def anyRest : Node := .loop .greedy 0 none .notLineFeed

def literalNode (text : String) : Node := Node.join (text.toList.map .char)

/-- Presence is preferred over absence. -/
def optionally (n : Node) : Node := .loop .greedy 0 (some 1) n

/-- What a reader makes of a scope: an expression and the scope after it. -/
abbrev Synthesis := Scope → Except Fault (Node × Scope)

/-- Puts an expression into a group with a name. -/
def capturing (name : String) (inner : Synthesis) : Synthesis := fun s => do
  if s.names.contains name then throw .malformed
  let i := s.next
  let (node, s') ← inner { s with next := i + 1, names := s.names.insert name i }
  return (.group i node, { s' with closed := s'.closed.insert i (s'.width node) })

/-- The expression of one value of a parameter. -/
def valueNode (kind : Kind) : Synthesis := fun s =>
  match kind with
  | .required => .ok (segment, s)
  | .optional => .ok (segment, s)
  | .splat => .ok (anyRest, s)
  | .constrained c => readInto s c.toList

/-- A parameter's value together with its separator. -/
def foldNode (kind : Kind) (fold : Fold) (value : Node) : Node :=
  if kind.isOptional then
    match fold with
    | .before => optionally (.seq (.char separator) value)
    | .after => optionally (.seq value (.char separator))
    | .none => optionally value
  else value

/-- The expression of a part; with `capture` parameters are groups. -/
def partNode (capture : Bool) : Part → Synthesis
  | .literal text, s => .ok (literalNode text, s)
  | .param p fold, s => do
    let inner := valueNode p.kind
    let (value, s') ← if capture then capturing p.name inner s else inner s
    return (foldNode p.kind fold value, s')

/-- The expressions of parts, read one after the other into a scope. -/
def partNodes (capture : Bool) : List Part → Scope → Except Fault (List Node × Scope)
  | [], s => .ok ([], s)
  | part :: rest, s => do
    let (node, s') ← partNode capture part s
    let (nodes, s'') ← partNodes capture rest s'
    return (node :: nodes, s'')

/-- The expression of a layout and the names of its groups. -/
def synthesize (capture : Bool) (parts : List Part) : Except Fault (Node × Assoc String Nat) := do
  let (nodes, s) ← partNodes capture parts .initial
  s.settle
  return (Node.join nodes, s.names)

/-- The expressions of the constraints, each read on its own. -/
def constraintNodes (params : List Param) : Assoc String Node :=
  params.filterMap fun p =>
    match p.kind with
    | .constrained c => (read c.toList).toOption.map (p.name, ·)
    | _ => none

/-- Turns a fault of the whole expression into an error. -/
def matcherError (source : String) (fault : Fault) : Error :=
  constraintError fault (.pattern source .noMatcher none)

/-- Compiles the text of a pattern. Parameters that nothing tells apart are refused. -/
def compile (source : String) : Except Error Pattern := do
  let tokens ← tokenize source
  if let some (p, q) := adjacentPair? tokens then throw (.ambiguous source p.name q.name)
  let parts := layout tokens
  if let some (p, q) := foldedPair? parts then throw (.ambiguous source p.name q.name)
  let params := paramsOf tokens
  let (matcher, groups) ← (synthesize true parts).mapError (matcherError source)
  let (validator, _) ← (synthesize false parts).mapError (matcherError source)
  return ⟨source, parts, params, matcher, groups, validator, constraintNodes params⟩

/-- The names of the parameters in order of appearance. -/
def paramNames (p : Pattern) : List String := p.params.map Param.name

/-- The literal text before the first parameter. -/
def headText (p : Pattern) : String := staticHead p.parts

/-- A compiled pattern in messages. -/
def describe (p : Pattern) : String := "CompiledPattern(" ++ Text.quote p.source ++ ")"

/-- The values of parameters at the end of a match. Absent optionals are left out. A constraint may
have taken nothing or a separator, which no value may: then the whole path does not fit. -/
def collect (p : Pattern) (id : String) (place : Place) :
    List Param → Except Error (Option (Assoc String String))
  | [] => .ok (some [])
  | q :: rest =>
    match (p.groups.get? q.name).bind place.group? with
    | none =>
      if q.kind.isOptional then collect p id place rest
      else .error (.unset p.source id q.name)
    | some value =>
      if q.kind.constraint?.isSome && (value.isEmpty || value.contains separator) then .ok none
      else do
        let values ← collect p id place rest
        return values.map ((q.name, String.ofList value) :: ·)

/-- The parameters of a path, or nothing if the path does not fit the pattern. -/
def extract (p : Pattern) (id : String) : Except Error (Option (Assoc String String)) :=
  match p.matcher.fullMatch id.toList with
  | none => .ok none
  | some place => p.collect id place p.params

/-- Whether a path fits the pattern. -/
def accepts (p : Pattern) (id : String) : Except Error Bool :=
  if p.constraints.isEmpty then .ok (p.validator.fullMatch id.toList).isSome
  else do return (← p.extract id).isSome

end Pattern

end Winnow
