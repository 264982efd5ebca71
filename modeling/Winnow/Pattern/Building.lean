import Winnow.Pattern.Compiled
import Winnow.Value.Display

/-!
# Building paths

Puts values into the placeholders of a pattern. A value that could not stand in its placeholder is
refused; an optional parameter without value is left out together with its separator.
-/

namespace Winnow.Pattern

/-- What is wrong with a value for a parameter. -/
def valueFault? (p : Pattern) (q : Param) (value : String) : Option ValueFault :=
  match q.kind with
  | .splat => none
  | kind =>
    if value.isEmpty then some .empty
    else if value.toList.contains separator then some .containsSeparator
    else match kind.constraint?, p.constraints.get? q.name with
    | some c, some node =>
      if (node.fullMatch value.toList).isNone then some (.constraintViolated c) else none
    | _, _ => none

/-- Whether a parameter counts as having no value. -/
def isUnset (q : Param) : Option Value → Bool
  | none => true
  | some .null => true
  | some (.text s) => q.kind.isOptional && s.isEmpty
  | some _ => false

/-- A value with its separator. -/
def folded (fold : Fold) (value : String) : String :=
  match fold with
  | .none => value
  | .before => separator.toString ++ value
  | .after => value ++ separator.toString

/-- The text of a part under given values. -/
def buildPart (p : Pattern) (values : Assoc String Value) : Part → Except Error String
  | .literal text => .ok text
  | .param q fold =>
    let value := values.get? q.name
    if isUnset q value then
      match q.kind with
      | .optional => .ok ""
      | .splat => .ok ""
      | _ => .error (.missingParameter q.name p.source)
    else
      let text := (value.map Value.plain).getD ""
      match p.valueFault? q text with
      | some fault => .error (.parameterValue q.name text fault)
      | none => .ok (folded fold text)

/-- The text of several parts, in order; the first part that cannot be built decides the error. -/
def buildParts (p : Pattern) (values : Assoc String Value) : List Part → Except Error String
  | [] => .ok ""
  | part :: rest => do
    let head ← p.buildPart values part
    let tail ← p.buildParts values rest
    return head ++ tail

/-- The path that the pattern describes with the given values. -/
def build (p : Pattern) (values : Assoc String Value) : Except Error String :=
  p.buildParts values p.parts

end Winnow.Pattern
