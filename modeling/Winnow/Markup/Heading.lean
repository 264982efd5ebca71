import Winnow.Markup.Slug
import Winnow.Text.Lines
import Winnow.Value

/-!
# Headings

The headings of a markdown text: lines that begin with up to six hash marks. Lines between code
fences are no headings.
-/

namespace Winnow.Markup

/-- A heading of a text. -/
structure Heading where
  depth : Nat
  text : List Char
  deriving DecidableEq, Repr

def isBlankChar (c : Char) : Bool := c == ' ' || c == '\t'

/-- Removes up to three spaces at the start of a line. -/
def dropMargin (line : List Char) : List Char :=
  line.drop (min 3 (line.takeWhile (· == ' ')).length)

def dropBlanksAtEnd (s : List Char) : List Char := (s.reverse.dropWhile isBlankChar).reverse

/-- Removes a closing run of hash marks that stands behind a blank. A text of hash marks alone is
kept. -/
def dropClosingMarks (s : List Char) : List Char :=
  let before := (s.reverse.dropWhile (· == '#')).reverse
  if before.getLast?.any isBlankChar then dropBlanksAtEnd before else s

/-- The heading that a line is. -/
def Heading.ofLine? (line : List Char) : Option Heading :=
  let s := dropMargin line
  let depth := (s.takeWhile (· == '#')).length
  let rest := s.drop depth
  if depth == 0 || depth > 6 || !rest.head?.all isBlankChar then none
  else
    let text := dropClosingMarks (dropBlanksAtEnd (rest.dropWhile isBlankChar))
    some ⟨depth, Text.strip text⟩

/-- The mark of a code fence: a run of one character. -/
structure CodeFence where
  mark : Char
  length : Nat
  deriving DecidableEq, Repr

/-- The code fence at the start of a line. -/
def CodeFence.ofLine? (line : List Char) : Option CodeFence :=
  match dropMargin line with
  | [] => none
  | c :: rest =>
    let length := (rest.takeWhile (· == c)).length + 1
    if (c == '\x60' || c == '~') && length ≥ 3 then some ⟨c, length⟩ else none

/-- Whether a fence closes one that is open. -/
def CodeFence.closes (f opener : CodeFence) : Bool :=
  f.mark == opener.mark && f.length ≥ opener.length

/-- The headings in lines, where `opener` is the code fence that is open. -/
def headingsIn (opener : Option CodeFence) : List (List Char) → List Heading
  | [] => []
  | line :: rest =>
    match CodeFence.ofLine? line, opener with
    | some f, none => headingsIn (some f) rest
    | some f, some o => headingsIn (if f.closes o then none else some o) rest
    | none, some o => headingsIn (some o) rest
    | none, none =>
      match Heading.ofLine? line with
      | some h => h :: headingsIn none rest
      | none => headingsIn none rest

/-- The headings of a text. -/
def headings (text : List Char) : List Heading := headingsIn none (Text.lines text)

namespace Heading

def slug (h : Heading) : List Char := Markup.slug h.text

/-- A heading as a piece of data. -/
def value (h : Heading) : Value :=
  .map [(.text "depth", .int h.depth), (.text "text", .text (String.ofList h.text)),
    (.text "slug", .text (String.ofList h.slug))]

end Heading

end Winnow.Markup
