/-!
# Globs

Patterns for one name of a path: a star is any text, a question mark any character, and brackets
hold the characters that may stand in a place. A segment of two stars stands for any number of
names.
-/

namespace Winnow.Files

/-- A part of a pattern for a name. -/
inductive GlobPart
  | star
  | any
  | char (c : Char)
  /-- One of the characters in some ranges, or none of them. -/
  | oneOf (negated : Bool) (ranges : List (Char × Char))
  deriving DecidableEq, Repr

namespace GlobPart

/-- The ranges between brackets. A hyphen between two characters makes a range, and one whose first
character is beyond its last holds nothing. This is what brackets mean wherever they are described;
the matcher of names in use drops such a range from the text before it looks for an exclamation
mark, so it takes `[z-a!b]` for `[!b]`. No wildcard that is made here has a range. -/
def ranges : List Char → List (Char × Char)
  | a :: '-' :: b :: rest => (a, b) :: ranges rest
  | a :: rest => (a, a) :: ranges rest
  | [] => []

/-- What stands between brackets, and what follows them. A closing bracket that comes first is
meant as a character. -/
def bracket? (s : List Char) : Option (Bool × List Char × List Char) :=
  let (negated, body) := match s with
    | '!' :: rest => (true, rest)
    | _ => (false, s)
  let (first, body) := match body with
    | ']' :: rest => ([']'], rest)
    | _ => ([], body)
  match body.dropWhile (· != ']') with
  | [] => none
  | _ :: after => some (negated, first ++ body.takeWhile (· != ']'), after)

/-- Reads the parts of a pattern. A bracket that is never closed is meant as a character. -/
def read : Nat → List Char → List GlobPart
  | 0, _ => []
  | _, [] => []
  | fuel + 1, '*' :: rest => star :: read fuel rest
  | fuel + 1, '?' :: rest => any :: read fuel rest
  | fuel + 1, '[' :: rest =>
    match bracket? rest with
    | some (negated, body, after) => oneOf negated (ranges body) :: read fuel after
    | none => char '[' :: read fuel rest
  | fuel + 1, c :: rest => char c :: read fuel rest

/-- Whether a part other than a star stands for a character. -/
def accepts (c : Char) : GlobPart → Bool
  | star => true
  | any => true
  | char d => c == d
  | oneOf negated rs => rs.any (fun (a, b) => a ≤ c && c ≤ b) != negated

end GlobPart

/-- A pattern for a name. -/
abbrev Glob := List GlobPart

namespace Glob

def ofText (s : List Char) : Glob := GlobPart.read s.length s

/-- Whether a name fits a pattern. -/
def fits : Glob → List Char → Bool
  | [], s => s.isEmpty
  | .star :: g, [] => fits g []
  | .star :: g, c :: s => fits g (c :: s) || fits (.star :: g) s
  | _ :: _, [] => false
  | p :: g, c :: s => p.accepts c && fits g s
termination_by g s => (g.length, s.length)

end Glob

/-- A segment of a pattern for paths. -/
inductive Segment
  /-- Any number of directories. -/
  | anyDepth
  | name (s : String)
  | glob (g : Glob)
  deriving DecidableEq, Repr

namespace Segment

def ofText (s : String) : Segment :=
  if s = "**" then .anyDepth
  else if s.toList.any fun c => c == '*' || c == '?' || c == '[' then .glob (.ofText s.toList)
  else .name s

/-- The segments of a pattern; empty ones mean nothing. -/
def ofPattern (segments : List String) : List Segment :=
  (segments.filter (· ≠ "")).map ofText

end Segment

end Winnow.Files
