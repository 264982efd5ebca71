import Winnow.Error

/-!
# Places in a document

A cursor is a place in a text: what is left to read, and the line and column reached. The end of
the text reads as the null character, which no document holds.
-/

namespace Winnow.Yaml

/-- Why a document has no value: it is malformed, or a scalar in it does not have the form that its
tag asks for. -/
inductive Fault
  | malformed
  | scalar (fault : TypeFault)
  deriving DecidableEq, Repr

def Fault.error : Fault → Error
  | .malformed => .invalidDocument
  | .scalar fault => .type fault

/-- What the end of a text reads as. -/
def endMark : Char := '\x00'

def isBreak (c : Char) : Bool :=
  c == '\n' || c == '\r' || c == '\u0085' || c == '\u2028' || c == '\u2029'

def isBreakOrEnd (c : Char) : Bool := isBreak c || c == endMark

def isSpaceOrBreakOrEnd (c : Char) : Bool := c == ' ' || isBreakOrEnd c

def isBlank (c : Char) : Bool := c == ' ' || c == '\t'

def isBlankOrBreakOrEnd (c : Char) : Bool := isBlank c || isBreakOrEnd c

/-- A character of an anchor, a handle or the name of a directive. -/
def isNameChar (c : Char) : Bool := c.isAlphanum || c == '-' || c == '_'

/-- A character that may stand in a document. -/
def isAllowed (c : Char) : Bool :=
  let n := c.toNat
  c == '\t' || c == '\n' || c == '\r' || (0x20 ≤ n && n ≤ 0x7E) || n == 0x85 ||
    (0xA0 ≤ n && n != 0xFFFE && n != 0xFFFF)

/-- A place in a text. -/
structure Cursor where
  rest : List Char
  index : Nat
  line : Nat
  column : Nat
  deriving Repr

namespace Cursor

def start (s : List Char) : Cursor := ⟨s, 0, 0, 0⟩

/-- The next character. -/
def peek (c : Cursor) : Char := c.rest.headD endMark

/-- The character behind the next `n`. -/
def peekAt (c : Cursor) (n : Nat) : Char := (c.rest.drop n).headD endMark

/-- The line and column behind a character that is followed by `rest`. A byte order mark takes no
column, and a carriage return ends no line when a line feed follows. -/
def step (line column : Nat) (ch : Char) (rest : List Char) : Nat × Nat :=
  if ch == '\n' || ch == '\u0085' || ch == '\u2028' || ch == '\u2029' ||
      (ch == '\r' && rest.head? != some '\n') then (line + 1, 0)
  else if ch == '\uFEFF' then (line, column)
  else (line, column + 1)

/-- Reads characters as long as `p` holds of the character and of what follows it. -/
def spanAux (p : Char → List Char → Bool) (taken : List Char) (index line column : Nat) :
    List Char → List Char × Cursor
  | [] => (taken.reverse, ⟨[], index, line, column⟩)
  | ch :: rest =>
    if p ch rest then
      let (line', column') := step line column ch rest
      spanAux p (ch :: taken) (index + 1) line' column' rest
    else (taken.reverse, ⟨ch :: rest, index, line, column⟩)

/-- Reads characters as long as `p` holds of the character and of what follows it. -/
def spanWith (p : Char → List Char → Bool) (c : Cursor) : List Char × Cursor :=
  spanAux p [] c.index c.line c.column c.rest

/-- Reads characters as long as `p` holds. -/
def span (p : Char → Bool) (c : Cursor) : List Char × Cursor := c.spanWith fun ch _ => p ch

/-- Passes over characters as long as `p` holds. -/
def skip (p : Char → Bool) (c : Cursor) : Cursor := (c.span p).2

/-- Passes over one character. -/
def next (c : Cursor) : Cursor :=
  match c.rest with
  | [] => c
  | ch :: rest =>
    let (line, column) := step c.line c.column ch rest
    ⟨rest, c.index + 1, line, column⟩

/-- Passes over `n` characters. -/
def advance (c : Cursor) : Nat → Cursor
  | 0 => c
  | n + 1 => c.next.advance n

/-- Passes over spaces up to a column. -/
def skipIndent (c : Cursor) (column : Nat) : Cursor := go (column - c.column) c
where
  go : Nat → Cursor → Cursor
    | 0, c => c
    | n + 1, c => if c.peek == ' ' then go n c.next else c

/-- Passes over a line break and gives what it stands for in a scalar: a line feed, or itself if it
is a line or paragraph separator. -/
def lineBreak? (c : Cursor) : Option (Char × Cursor) :=
  let ch := c.peek
  if ch == '\r' && c.peekAt 1 == '\n' then some ('\n', c.advance 2)
  else if ch == '\n' || ch == '\r' || ch == '\u0085' then some ('\n', c.next)
  else if ch == '\u2028' || ch == '\u2029' then some (ch, c.next)
  else none

/-- Passes over a line break if there is one. -/
def skipBreak (c : Cursor) : Cursor :=
  match c.lineBreak? with
  | some (_, c') => c'
  | none => c

/-- Passes over spaces and a comment, which have to be all that is left of the line. -/
def skipRestOfLine (c : Cursor) : Except Fault Cursor :=
  let c := c.skip (· == ' ')
  let c := if c.peek == '#' then c.skip (!isBreakOrEnd ·) else c
  if isBreakOrEnd c.peek then .ok c.skipBreak else .error .malformed

/-- Whether three characters `mark` stand here as a word of their own. -/
def atMarker (c : Cursor) (mark : Char) : Bool :=
  c.peek == mark && c.peekAt 1 == mark && c.peekAt 2 == mark && isBlankOrBreakOrEnd (c.peekAt 3)

/-- Whether a line that begins here separates documents. -/
def atSeparator (c : Cursor) : Bool := c.atMarker '-' || c.atMarker '.'

end Cursor

end Winnow.Yaml
