import Winnow.Markup.Head
import Winnow.Yaml.Meaning

/-!
# Metadata of an item

The block between the fences of an item holds a mapping in YAML.
-/

namespace Winnow.Markup

/-- The mapping that the inner bytes of a block hold; an empty block holds an empty one. -/
def readMapping (id : String) (bs : Bytes) : Except Error Record :=
  match Text.Utf8.decode bs with
  | .error f => .error (.malformedFacet id (.metaNotUtf8 f))
  | .ok text =>
    match Yaml.read text with
    | .error .malformed => .error (.malformedFacet id .invalidDocument)
    | .error (.scalar f) => .error (.type f)
    | .ok .null => .ok []
    | .ok (.map entries) => .ok entries
    | .ok v => .error (.malformedFacet id (.notMapping v.typeName))

/-- The metadata in a block of which the bytes are known. -/
def Block.metadata (id : String) (bs : Bytes) : Block → Except Error Record
  | .absent => .ok []
  | .pending => .error (.malformedFacet id .neverClosed)
  | .closed start stop _ => readMapping id ((bs.take stop).drop start)

/-- The metadata of an item, and the head that was read for it. -/
def readMetadata (id : String) (budget ceiling : Nat) (content : Bytes) :
    Except Error Record × Head :=
  let (block, head) := Head.find budget ceiling content
  (block.metadata id head.bytes, head)

end Winnow.Markup
