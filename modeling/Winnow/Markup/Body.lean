import Winnow.Markup.Head
import Winnow.Error

/-!
# The body of an item

What follows the block of an item, or the whole item if it has none, as text.
-/

namespace Winnow.Markup

/-- Where the body begins, unless a block is opened and never closed. -/
def Block.bodyStart? : Block → Option Nat
  | .absent => some 0
  | .pending => none
  | .closed _ _ body => some body

/-- The body of an item, without line breaks at its start. -/
def readBody (id : String) (content : Bytes) : Except Error (List Char) :=
  match (Block.scan content true).bodyStart? with
  | none => .error (.malformedFacet id .neverClosed)
  | some start =>
    match Text.Utf8.decode (content.drop start) with
    | .error f => .error (.malformedFacet id (.bodyNotUtf8 f))
    | .ok text => .ok (text.dropWhile fun c => c == '\r' || c == '\n')

end Winnow.Markup
