import Winnow.Files.Tree
import Winnow.Files.Glob
import Winnow.Query.Resolver

/-!
# Walks

A walk lists the files under a directory whose path fits a pattern, segment by segment. Directories
are read in the order of names. A link to a file counts as a file; a link to a directory is not
entered. A literal segment is looked up and not searched for.
-/

namespace Winnow.Files

/-- A directory that a walk has reached. -/
structure Spot where
  place : Place
  /-- The path of the directory. -/
  path : String
  /-- The path of the directory from where the walk began, up to and including a separator. -/
  head : String

namespace Spot

/-- The path of a name in the directory. -/
def pathOf (s : Spot) (name : String) : String :=
  if s.path.endsWith "/" then s.path ++ name else s.path ++ "/" ++ name

/-- A directory below this one. -/
def enter (s : Spot) (name : String) (place : Place) : Spot :=
  ⟨place, s.pathOf name, s.head ++ name ++ "/"⟩

end Spot

/-- What a walk sees of an entry. -/
inductive Kind
  | file
  | dir
  | other
  deriving DecidableEq, Repr

/-- No identifiers at all. -/
def nothing : Listing := ⟨[], none⟩

/-- One listing after the other; an error cuts off what follows it. -/
def andThen (a b : Listing) : Listing :=
  match a.fault with
  | some e => ⟨a.ids, some e⟩
  | none => ⟨a.ids ++ b.ids, b.fault⟩

def concat (ls : List Listing) : Listing := ls.foldr andThen nothing

/-- The kind of an entry, where a link to a file is a file and a link to nothing is neither. -/
def Place.kind (p : Place) : Entry → Except FileFault Kind
  | .file _ => .ok .file
  | .dir _ => .ok .dir
  | .link target =>
    match follow (maxLinks - 1) (p.origin target) (pieces target) with
    | .ok (.file _) => .ok .file
    -- A link to a directory is not entered.
    | .ok (.dir _) => .ok .other
    | .error .notFound => .ok .other
    | .error f => .error f

/-- The kinds of some entries. -/
def Spot.kinds (s : Spot) : Entries → Except (FileFault × String) (List (String × Kind))
  | [] => .ok []
  | (name, e) :: rest =>
    match s.place.kind e with
    | .error f => .error (f, s.pathOf name)
    | .ok k => (s.kinds rest).map ((name, k) :: ·)

/-- Sorts by name. -/
def sortByName {α : Type} (xs : List (String × α)) : List (String × α) :=
  xs.mergeSort fun a b => a.1 ≤ b.1

/-- Reads the directory: the kinds of its entries in the order of names. A link through a file makes
the whole directory unreadable, which counts as empty. -/
def Spot.scan (s : Spot) : Except Error (List (String × Kind)) :=
  match s.kinds s.place.here with
  | .ok ks => .ok (sortByName ks)
  | .error (.notDirectory, _) => .ok []
  | .error (f, path) => .error (.file f path)

/-! ## Any depth -/

mutual

/-- Applies `f` at a directory and at every directory below it. -/
def descendEntry (f : Spot → Listing) (around : List Entries) (path head : String) :
    Entry → Listing
  | .dir entries =>
    let s : Spot := ⟨⟨entries, around⟩, path, head⟩
    andThen (f s) <|
      match s.scan with
      | .error e => ⟨[], some e⟩
      | .ok [] => nothing
      | .ok _ => concat ((sortByName (descendEntries f s entries)).map Prod.snd)
  | _ => nothing

/-- Applies `f` at the directories among some entries and at every directory below them. -/
def descendEntries (f : Spot → Listing) (s : Spot) :
    List (String × Entry) → List (String × Listing)
  | [] => []
  | (name, e) :: rest =>
    (name, descendEntry f (s.place.here :: s.place.around) (s.pathOf name)
      (s.head ++ name ++ "/") e) :: descendEntries f s rest

end

/-- Applies `f` at a directory and at every directory below it, a directory before those below it
and directories side by side in the order of names. -/
def descend (f : Spot → Listing) (s : Spot) : Listing :=
  descendEntry f s.place.around s.path s.head (.dir s.place.here)

/-! ## Single segments -/

/-- Looks up a directory by name and goes on in it. -/
def enterName (f : Spot → Listing) (name : String) (s : Spot) : Listing :=
  if name = "." then f ⟨s.place, s.path, s.head ++ "./"⟩
  else if name = ".." then f (s.enter name s.place.up)
  else match follow maxLinks s.place [name] with
    -- A name that is too long is a fault, anything else that goes wrong finds nothing.
    | .error .nameTooLong => ⟨[], some (.file .nameTooLong (s.pathOf name))⟩
    | _ =>
      match Assoc.get? name s.place.here with
      | some (.dir entries) => f (s.enter name (s.place.enter entries))
      | _ => nothing

/-- Looks up a file by name. -/
def fileName (name : String) (s : Spot) : Listing :=
  match follow maxLinks s.place [name] with
  | .ok (.file _) => ⟨[s.head ++ name], none⟩
  | .error .nameTooLong => ⟨[], some (.file .nameTooLong (s.pathOf name))⟩
  | _ => nothing

/-- The entries of a directory whose names fit a pattern. -/
def Spot.fitting (s : Spot) (g : Glob) : Except Error (List (String × Kind)) :=
  s.scan.map fun ks => ks.filter fun k => g.fits k.1.toList

/-- Goes on in the directories whose names fit a pattern. -/
def enterFitting (f : Spot → Listing) (g : Glob) (s : Spot) : Listing :=
  match s.fitting g with
  | .error e => ⟨[], some e⟩
  | .ok ks => concat (ks.map fun (name, k) =>
      match k, Assoc.get? name s.place.here with
      | .dir, some (.dir entries) => f (s.enter name (s.place.enter entries))
      | _, _ => nothing)

/-- The files whose names fit a pattern. -/
def filesFitting (g : Glob) (s : Spot) : Listing :=
  match s.fitting g with
  | .error e => ⟨[], some e⟩
  | .ok ks => ⟨(ks.filter (·.2 = .file)).map fun k => s.head ++ k.1, none⟩

/-- Lists the files that segments lead to. Segments that end in any depth lead to no file. -/
def walk : List Segment → Spot → Listing
  | [], _ => nothing
  | .anyDepth :: rest, s => descend (walk rest) s
  | [.name n], s => fileName n s
  | .name n :: rest, s => enterName (walk rest) n s
  | [.glob g], s => filesFitting g s
  | .glob g :: rest, s => enterFitting (walk rest) g s

/-- The path that a walk looks at first. -/
def firstProbe (root : String) : List Segment → String
  | [] => root
  | .anyDepth :: rest => firstProbe root rest
  | .name n :: _ => child root n
  | .glob _ :: _ => root

/-- Lists the files under a directory of a disk. A directory that is not there has none. -/
def Disk.walk (d : Disk) (root : String) (segments : List Segment) : Listing :=
  match d.find root with
  | .ok (.dir place) => Files.walk segments ⟨place, root, ""⟩
  | .error .nameTooLong =>
    if segments.isEmpty then nothing
    else ⟨[], some (.file .nameTooLong (firstProbe root segments))⟩
  | _ => nothing

end Winnow.Files
