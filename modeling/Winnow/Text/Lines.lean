/-!
# Lines and pieces of text

Texts as lists of characters, cut into lines at every line boundary of the character database, and
cut at a separator character.
-/

namespace Winnow.Text

/-- A character that ends a line: line feed, vertical tab, form feed, carriage return, the
separators of information, next line, and the line and paragraph separators. -/
def isLineBoundary (c : Char) : Bool :=
  let n := c.toNat
  (0x0A ≤ n && n ≤ 0x0D) || (0x1C ≤ n && n ≤ 0x1E) || n == 0x85 || n == 0x2028 || n == 0x2029

/-- The lines of a text with `current` as the reversed start of the first one. A carriage return
and a line feed after it are one boundary; a boundary at the end opens no further line. -/
def linesAux (current : List Char) : List Char → List (List Char)
  | [] => if current.isEmpty then [] else [current.reverse]
  | '\r' :: '\n' :: rest => current.reverse :: linesAux [] rest
  | c :: rest =>
    if isLineBoundary c then current.reverse :: linesAux [] rest else linesAux (c :: current) rest

/-- The lines of a text, without their boundaries. -/
def lines (s : List Char) : List (List Char) := linesAux [] s

/-- Cuts at every occurrence of `sep`; there is always at least one piece. -/
def splitOn (sep : Char) : List Char → List (List Char)
  | [] => [[]]
  | c :: rest =>
    if c = sep then [] :: splitOn sep rest
    else match splitOn sep rest with
      | [] => [[c]]
      | piece :: pieces => (c :: piece) :: pieces

/-- The pieces of a text, as texts. -/
def pieces (sep : Char) (s : String) : List String :=
  (splitOn sep s.toList).map String.ofList

/-- The text before the first `sep`, and the text after it if there is one. -/
def cut (sep : Char) : List Char → List Char × Option (List Char)
  | [] => ([], none)
  | c :: rest =>
    if c = sep then ([], some rest)
    else
      let (before, after) := cut sep rest
      (c :: before, after)

/-- Whether `s` starts with `head`, and what follows then. -/
def dropHead? : List Char → List Char → Option (List Char)
  | [], s => some s
  | _ :: _, [] => none
  | h :: head, c :: s => if h = c then dropHead? head s else none

end Winnow.Text
