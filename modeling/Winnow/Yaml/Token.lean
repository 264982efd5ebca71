import Winnow.Yaml.Cursor

/-!
# Tokens

What a document is made of: directives and document marks, the starts and ends of collections, the
marks of entries, keys and values, and scalars with their properties. Where a text cannot be read
on, a fault stands for the rest.
-/

namespace Winnow.Yaml

inductive Directive
  | version (major : Nat)
  | tag (handle head : String)
  | other
  deriving DecidableEq, Repr

inductive Token
  | directive (d : Directive)
  | documentStart
  | documentEnd
  | blockSequence
  | blockMapping
  | blockEnd
  | flowSequence
  | flowSequenceEnd
  | flowMapping
  | flowMappingEnd
  | blockEntry
  | flowEntry
  | key
  | value
  | alias (name : String)
  | anchor (name : String)
  /-- A tag as written: a suffix behind a handle, or the whole tag. -/
  | tag (handle : Option String) (suffix : String)
  | scalar (isPlain : Bool) (text : List Char)
  | finish
  | fault (f : Fault)
  deriving DecidableEq, Repr

end Winnow.Yaml
