import Winnow.Text.Lines

/-!
# Paths

A path is a list of names under an optional root. Empty names and single dots mean nothing and are
dropped when a path is put into its normal form; double dots are kept, since what they lead to
depends on the files.
-/

namespace Winnow.Files

/-- The names in a written path, empty ones included. -/
def pieces (path : String) : List String := Text.pieces '/' path

def isAbsolute (path : String) : Bool := path.toList.head? == some '/'

/-- A path in normal form. -/
structure Path where
  isAbsolute : Bool
  names : List String
  deriving DecidableEq, Repr

namespace Path

def ofText (path : String) : Path :=
  ⟨Files.isAbsolute path, (pieces path).filter fun s => s != "" && s != "."⟩

/-- The text of a path; a path without names is a dot. -/
def text (p : Path) : String :=
  let body := "/".intercalate p.names
  if p.isAbsolute then "/" ++ body else if p.names.isEmpty then "." else body

/-- The path `q` seen from `p`. -/
def join (p q : Path) : Path := if q.isAbsolute then q else ⟨p.isAbsolute, p.names ++ q.names⟩

/-- The path without its last name. -/
def parent (p : Path) : Path := ⟨p.isAbsolute, p.names.dropLast⟩

end Path

/-- A name under a directory. -/
def child (directory name : String) : String :=
  ((Path.ofText directory).join (Path.ofText name)).text

end Winnow.Files
