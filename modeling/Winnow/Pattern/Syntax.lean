/-!
# Path patterns

A path pattern is text with placeholders in braces. Each placeholder stands for a parameter of the
paths that the pattern describes:

* a name alone: one non-empty piece of a segment;
* a question mark and a name: the same, or nothing together with the separator next to it;
* three dots and a name: any rest, separators included;
* a name, a colon and an expression: a piece that matches the expression.
-/

namespace Winnow.Pattern

/-- Separates the segments of a path. -/
def separator : Char := '/'

/-- What a placeholder may stand for. -/
inductive Kind
  | required
  | optional
  | splat
  | constrained (constraint : String)
  deriving DecidableEq, Repr

/-- A placeholder; positions count the placeholders of a pattern from zero. -/
structure Param where
  name : String
  kind : Kind
  position : Nat
  deriving DecidableEq, Repr

/-- A token of a pattern. -/
inductive Token
  | literal (text : String)
  | param (p : Param)
  deriving DecidableEq, Repr

/-- The constraint of a kind, if it has one. -/
def Kind.constraint? : Kind → Option String
  | .constrained c => some c
  | _ => none

def Kind.isOptional : Kind → Bool
  | .optional => true
  | _ => false

def Kind.name : Kind → String
  | .required => "required"
  | .optional => "optional"
  | .splat => "splat"
  | .constrained _ => "constrained"

/-- The mark that a placeholder of a kind opens with. -/
def Kind.mark : Kind → String
  | .optional => "?"
  | .splat => "..."
  | _ => ""

/-- The written form of a token. -/
def Token.render : Token → String
  | .literal text => text
  | .param p =>
    let constraint := match p.kind.constraint? with
      | none => ""
      | some c => ":" ++ c
    "\x7b" ++ p.kind.mark ++ p.name ++ constraint ++ "\x7d"

/-- The parameters among tokens. -/
def paramsOf (tokens : List Token) : List Param :=
  tokens.filterMap fun
    | .literal _ => none
    | .param p => some p

end Winnow.Pattern
