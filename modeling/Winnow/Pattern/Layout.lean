import Winnow.Pattern.Syntax
import Winnow.Error

/-!
# Layout of a pattern

An optional parameter takes the separator next to it along when it is absent: the separator before
it if no other optional has claimed it, otherwise the separator after it. The layout of a pattern is
its tokens with these separators moved into the parameters.
-/

namespace Winnow.Pattern

/-- Which separator belongs to a parameter. -/
inductive Fold
  | none
  | before
  | after
  deriving DecidableEq, Repr

/-- An element of a layout. -/
inductive Part
  | literal (text : String)
  | param (p : Param) (fold : Fold)
  deriving DecidableEq, Repr

/-- A literal part, unless it is empty. -/
def literalPart (text : List Char) : List Part :=
  if text.isEmpty then [] else [.literal (String.ofList text)]

/-- The text before a separator that ends it. -/
def dropSeparator? (text : List Char) : Option (List Char) :=
  if text.getLast? = some separator then some text.dropLast else none

/-- The layout of tokens. A literal is met after the optional before it has taken its share. -/
def layout : List Token → List Part
  | [] => []
  | .literal text :: .param p :: rest =>
    match dropSeparator? text.toList, p.kind.isOptional with
    | some text', true => literalPart text' ++ .param p .before :: layout rest
    | _, _ => literalPart text.toList ++ layout (.param p :: rest)
  | .literal text :: rest => literalPart text.toList ++ layout rest
  | .param p :: .literal text :: rest =>
    match p.kind.isOptional, text.toList with
    | true, c :: text' =>
      if c = separator then .param p .after :: layout (.literal (String.ofList text') :: rest)
      else .param p .none :: layout (.literal text :: rest)
    | _, _ => .param p .none :: layout (.literal text :: rest)
  | .param p :: rest => .param p .none :: layout rest
termination_by tokens => tokens.length

/-- The first two adjacent parameters that nothing tells apart. -/
def adjacentPair? : List Token → Option (Param × Param)
  | .param p :: .param q :: rest =>
    if p.kind.constraint?.isNone && q.kind.constraint?.isNone then some (p, q)
    else adjacentPair? (.param q :: rest)
  | _ :: rest => adjacentPair? rest
  | [] => none

/-- The first two adjacent optional parameters with separators on the same side: when only one of
them is present, nothing tells which. -/
def foldedPair? : List Part → Option (Param × Param)
  | .param p f :: .param q g :: rest =>
    if p.kind.isOptional && q.kind.isOptional && f ≠ .none && f = g then some (p, q)
    else foldedPair? (.param q g :: rest)
  | _ :: rest => foldedPair? rest
  | [] => none

/-- The literal text before the first parameter. -/
def staticHead : List Part → String
  | .literal text :: rest => text ++ staticHead rest
  | _ => ""

end Winnow.Pattern
