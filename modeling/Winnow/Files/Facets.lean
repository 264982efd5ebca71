import Winnow.Files.Tree
import Winnow.Markup.Metadata
import Winnow.Markup.Body
import Winnow.Markup.Heading
import Winnow.Query.Resolver

/-!
# Facets of files

The metadata of a file is the block at its head, its body the text behind the block. The identifier
of an item is the path of its file.
-/

namespace Winnow.Files

/-- Where metadata is read from, and how much of a file is read at first. -/
structure MetadataSource where
  disk : Disk
  fields : Option (List String)
  budget : Nat
  budget_pos : 0 < budget

namespace MetadataSource

/-- A source whose first read asks for at least one byte. -/
def make (disk : Disk) (fields : Option (List String)) (budget : Int) :
    Except Error MetadataSource :=
  if h : budget < 1 then .error (.argument (.budgetNotPositive (toString budget)))
  else .ok ⟨disk, fields, budget.toNat, by omega⟩

def describe (s : MetadataSource) : String :=
  "FrontmatterMetaResolver(fields=" ++ (s.fields.map quotedTuple).getD "None" ++
    s!", max_bytes={s.budget})"

/-- The metadata of a file. -/
def read (s : MetadataSource) (path : String) : Except Error Record := do
  let content ← s.disk.read path
  (Markup.readMetadata path s.budget Markup.defaultCeiling content).1

def facet (s : MetadataSource) : Facet where
  fields := s.fields
  resolve path request := (s.read path).map fun r => r.answer s.fields request

end MetadataSource

/-- Where bodies are read from. Markup is rendered only when there is a renderer. -/
structure BodySource where
  disk : Disk
  render : Option (String → String)

namespace BodySource

def fields (s : BodySource) : List String :=
  ["raw", "headings"] ++ if s.render.isSome then ["html"] else []

def describe (s : BodySource) : String :=
  "MarkdownBodyResolver(fields=" ++ quotedTuple s.fields ++ ")"

/-- A field of a body. -/
def field? (s : BodySource) (body : List Char) : String → Option Value
  | "raw" => some (.text (String.ofList body))
  | "headings" => some (.list ((Markup.headings body).map Markup.Heading.value))
  | "html" => s.render.map fun f => .text (f (String.ofList body))
  | _ => none

def facet (s : BodySource) : Facet where
  fields := some s.fields
  resolve path request := do
    let content ← s.disk.read path
    let body ← Markup.readBody path content
    return Assoc.ofList ((request.getD s.fields).filterMap fun f =>
      (s.field? body f).map (.text f, ·))

end BodySource

end Winnow.Files
