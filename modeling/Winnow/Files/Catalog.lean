import Winnow.Collection
import Winnow.Files.Search
import Winnow.Files.Facets
import Winnow.Query.Streaming

/-!
# Catalogs

A catalog is a file that defines collections. A query over a collection searches its directory and
reads metadata and bodies from its files.
-/

namespace Winnow.Files

structure Catalog where
  disk : Disk
  collections : List Collection

namespace Catalog

/-- Reads the catalog at a path. Roots are seen from the directory of the file. -/
def load (disk : Disk) (path : String) : Except Error Catalog := do
  let path := (Path.ofText path).text
  if !(← disk.exists? path) then throw (.collectionsNotFound path)
  let text ← match Text.Utf8.decode (← disk.read path) with
    | .ok text => pure text
    | .error f => throw (.notUtf8 f)
  let document ← (Yaml.read text).mapError Yaml.Fault.error
  let directory := (Path.ofText (← disk.realPath path)).parent
  let place (root : String) := disk.realPath (directory.join (Path.ofText root)).text
  return ⟨disk, ← Collection.ofDocument place document⟩

def names (c : Catalog) : List String := c.collections.map Collection.name

/-- The collection with a name. -/
def get (c : Catalog) (name : String) : Except Error Collection :=
  match c.collections.find? (·.name == name) with
  | some d => .ok d
  | none => .error (.setup (.unknownCollection name c.names))

/-- A query over a collection. Given facets stand in for those of the files. -/
def query (c : Catalog) (name : String) (facts body : Option Facet) (workers : Value) :
    Except Error Query := do
  let d ← c.get name
  let search ← FileSearch.make c.disk d.root (← Pattern.compile d.pattern)
  let facts ← match facts with
    | some f => pure (some f)
    | none =>
      if d.hasMeta then (some ·.facet) <$> MetadataSource.make c.disk d.metaFields d.budget
      else pure none
  let body := body <|> if d.hasBody then some (BodySource.mk c.disk none).facet else none
  Query.new search.search facts body workers

end Catalog

end Winnow.Files
