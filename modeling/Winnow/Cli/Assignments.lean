import Winnow.Yaml.Meaning
import Winnow.Text.Lines

/-!
# Assignments

Arguments of the form `key=value`. The key is what stands before the first equals sign, without the
white space around it; a later value for a key replaces the earlier one.
-/

namespace Winnow.Cli

/-- The value that a text stands for: itself, or what it means as a document. An empty text always
stands for itself. -/
def assignedValue (typed : Bool) (s : List Char) : Except Error Value :=
  if typed && !s.isEmpty then (Yaml.read s).mapError Yaml.Fault.error
  else .ok (.text (String.ofList s))

/-- The key and the value of an assignment. -/
def readAssignment (typed : Bool) (item : String) : Except Error (String × Value) :=
  match Text.cut '=' item.toList with
  | (before, some after) =>
    let key := Text.strip before
    if key.isEmpty then .error (.argument (.notAssignment item))
    else (assignedValue typed after).map fun v => (String.ofList key, v)
  | (_, none) => .error (.argument (.notAssignment item))

/-- The mapping that assignments make; the first of them that cannot be read decides the error. -/
def readAssignments (typed : Bool) (items : List String) : Except Error (Assoc String Value) :=
  (items.mapM (readAssignment typed)).map Assoc.ofList

end Winnow.Cli
