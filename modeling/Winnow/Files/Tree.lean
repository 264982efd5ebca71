import Winnow.Error
import Winnow.Assoc
import Winnow.Files.Path

/-!
# Trees of files

Files, directories and symbolic links as data. A path is followed name by name; links are replaced
by their targets on the way. A place is a directory together with the directories around it, so
that a double dot and a link can lead out of it.
-/

namespace Winnow.Files

inductive Entry
  | file (content : List UInt8)
  | dir (entries : List (String × Entry))
  | link (target : String)
  deriving Repr

/-- The entries of a directory by name. -/
abbrev Entries := Assoc String Entry

instance : Inhabited Entry := ⟨.dir []⟩

mutual

/-- How many links a tree holds. -/
def Entry.linkCount : Entry → Nat
  | .file _ => 0
  | .dir entries => linkCountIn entries
  | .link _ => 1

def linkCountIn : List (String × Entry) → Nat
  | [] => 0
  | (_, e) :: rest => e.linkCount + linkCountIn rest

end

/-- The entry that names lead to without passing through a link. -/
def Entry.at? : Entry → List String → Option Entry
  | e, [] => some e
  | .dir entries, name :: rest => (Assoc.get? name entries).bind fun e => e.at? rest
  | _, _ :: _ => none

/-- A directory with the directories around it, the innermost first. -/
structure Place where
  here : Entries
  around : List Entries

namespace Place

/-- The directory at the top. -/
def top (p : Place) : Place := ⟨p.around.getLastD p.here, []⟩

/-- The directory around this one; the one at the top is around itself. -/
def up (p : Place) : Place :=
  match p.around with
  | [] => p
  | es :: rest => ⟨es, rest⟩

def enter (p : Place) (entries : Entries) : Place := ⟨entries, p.here :: p.around⟩

/-- Where a path begins that is met at this place. -/
def origin (p : Place) (path : String) : Place := if isAbsolute path then p.top else p

end Place

/-- What a path leads to. -/
inductive Found
  | file (content : List UInt8)
  | dir (p : Place)

/-- The most bytes that a name can have. -/
def maxNameSize : Nat := 255

/-- The bytes that a path has to stay below. -/
def maxPathSize : Nat := 4096

/-- The most links that are passed on the way along a path. -/
def maxLinks : Nat := 40

/-- Follows names from a place on. `links` links may still be passed. -/
def follow (links : Nat) (p : Place) : List String → Except FileFault Found
  | [] => .ok (.dir p)
  | name :: rest =>
    if name = "" ∨ name = "." then follow links p rest
    else if name = ".." then follow links p.up rest
    else if name.utf8ByteSize > maxNameSize then .error .nameTooLong
    else match Assoc.get? name p.here with
      | none => .error .notFound
      | some (.dir entries) => follow links (p.enter entries) rest
      | some (.file content) => if rest = [] then .ok (.file content) else .error .notDirectory
      | some (.link target) =>
        match links with
        | 0 => .error .tooManyLinks
        | links + 1 => follow links (p.origin target) (pieces target ++ rest)
termination_by names => (links, names.length)

/-- All files, and the directory from which relative paths are seen. -/
structure Disk where
  root : Entries
  current : String

namespace Disk

/-- The absolute form of a path. -/
def absolute (d : Disk) (path : String) : String :=
  if isAbsolute path then path else d.current ++ "/" ++ path

/-- What a path leads to. -/
def find (d : Disk) (path : String) : Except FileFault Found :=
  if path = "" then .error .notFound
  else if path.utf8ByteSize ≥ maxPathSize then .error .nameTooLong
  else follow maxLinks ⟨d.root, []⟩ (pieces (d.absolute path))

/-- The content of the file at a path. -/
def read (d : Disk) (path : String) : Except Error (List UInt8) :=
  match d.find path with
  | .ok (.file content) => .ok content
  | .ok (.dir _) => .error (.file .isDirectory path)
  | .error f => .error (.file f path)

/-- Whether there is anything at a path. A path that is too long is refused. -/
def exists? (d : Disk) (path : String) : Except Error Bool :=
  match d.find path with
  | .ok _ => .ok true
  | .error .nameTooLong => .error (.file .nameTooLong path)
  | .error _ => .ok false

/-- Replaces links in a path by what they lead to, behind the reversed names `done`. Names that lead
nowhere are kept. `opened` are the links, by their reversed names, that are being replaced around
this path, at most `depth` more. A link that is open already leads back to itself; it is given
together with the names behind it. -/
def realNames (root : Entries) (depth : Nat) (opened : List (List String)) (done : List String) :
    List String → Except (List String) (List String)
  | [] => .ok done
  | name :: rest =>
    if name = "" ∨ name = "." then realNames root depth opened done rest
    else if name = ".." then realNames root depth opened (done.drop 1) rest
    else match (Entry.dir root).at? (name :: done).reverse with
      | some (.link target) =>
        match depth with
        | 0 => .error ((name :: done).reverse ++ rest)
        | depth' + 1 =>
          if opened.contains (name :: done) then .error ((name :: done).reverse ++ rest)
          else match realNames root depth' ((name :: done) :: opened)
              (if isAbsolute target then [] else done) (pieces target) with
            | .error names => .error (names ++ rest)
            | .ok done => realNames root (depth' + 1) opened done rest
      | _ => realNames root depth opened (name :: done) rest
termination_by names => (depth, names.length)

/-- No path can be looked at that has a null character in it. -/
def hasNull (path : String) : Bool := path.toList.contains '\x00'

/-- The path to the same place that passes no links. -/
def realPath (d : Disk) (path : String) : Except Error String :=
  match realNames d.root (linkCountIn d.root + 1) [] [] (pieces (d.absolute path)) with
  | .ok names =>
    let real := Path.text ⟨true, names.reverse⟩
    if hasNull path || hasNull real then .error (.type (.unconvertible .nullInPath)) else .ok real
  | .error names =>
    -- The names behind a loop are kept as they are written, and double dots may lead out of it.
    let looped := Path.text ⟨true, names⟩
    if names.contains ".." || names.contains "" || looped.utf8ByteSize ≥ maxPathSize then
      .error (.type (.unconvertible (.unread .loopedPath)))
    else if hasNull looped then .error (.type (.unconvertible .nullInPath))
    else .error .linkLoop

end Disk

/-- Puts an entry at names under a directory, making directories on the way. -/
def put (e : Entry) : List String → Entries → Entries
  | [], entries => entries
  | [name], entries => entries.insert name e
  | name :: rest, entries =>
    let inner := match Assoc.get? name entries with
      | some (.dir es) => es
      | _ => []
    entries.insert name (.dir (put e rest inner))

end Winnow.Files
