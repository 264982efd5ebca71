import Winnow.Yaml.Property
import Winnow.Decimal.Power

/-!
# Scalars as written

The four written forms of a scalar: between quotes of either kind, plain, and as a block of lines.
Each reader returns the text that the scalar stands for and the place behind it. Line breaks inside
a quoted, plain or folded scalar are folded: one break is a space, and of several the first is
dropped. Every step passes over a character, so that fuel for the characters left is enough.
-/

namespace Winnow.Yaml

open Cursor

/-- What a folded line break and the breaks of the empty lines after it stand for. -/
def folded (first : Char) (more : List Char) : List Char :=
  if first != '\n' then first :: more else if more.isEmpty then [' '] else more

/-! ## Quoted scalars -/

/-- Reads the breaks of empty lines from the start of a line on. A document mark may not stand
there. -/
def readEmptyLines (done : List Char) (c : Cursor) : Nat → Except Fault (List Char × Cursor)
  | 0 => .error .malformed
  | fuel + 1 =>
    if c.atSeparator then .error .malformed
    else
      let c := c.skip isBlank
      match c.lineBreak? with
      | some (ch, c) => readEmptyLines (ch :: done) c fuel
      | none => .ok (done.reverse, c)

/-- Reads blanks inside a quoted scalar, with the line breaks among them folded. -/
def readQuotedBlanks (c : Cursor) (fuel : Nat) : Except Fault (List Char × Cursor) :=
  let (blanks, c) := c.span isBlank
  if c.peek == endMark then .error .malformed
  else match c.lineBreak? with
    | none => .ok (blanks, c)
    | some (first, c) =>
      match readEmptyLines [] c fuel with
      | .error f => .error f
      | .ok (more, c) => .ok (folded first more, c)

/-- The character that a letter behind a backslash stands for. -/
def escape? : Char → Option Char
  | '0' => some '\x00'
  | 'a' => some '\x07'
  | 'b' => some '\x08'
  | 't' => some '\t'
  | '\t' => some '\t'
  | 'n' => some '\n'
  | 'v' => some '\x0b'
  | 'f' => some '\x0c'
  | 'r' => some '\r'
  | 'e' => some '\x1b'
  | ' ' => some ' '
  | '"' => some '"'
  | '\\' => some '\\'
  | '/' => some '/'
  | 'N' => some '\u0085'
  | '_' => some '\u00a0'
  | 'L' => some '\u2028'
  | 'P' => some '\u2029'
  | _ => none

/-- The number of hexadecimal digits behind a letter. -/
def codeLength? : Char → Option Nat
  | 'x' => some 2
  | 'u' => some 4
  | 'U' => some 8
  | _ => none

/-- The character with a code. -/
def charOfCode (n : Nat) : Except Fault Char :=
  if n ≥ twoTo 31 then .error (.scalar .tooLarge)
  else if n ≥ 0x110000 then .error (.scalar (.unconvertible .code))
  else if n.isValidChar then .ok (Char.ofNat n)
  else .error (.scalar (.unconvertible (.unread .surrogate)))

/-- Reads what stands behind a backslash. -/
def readEscape (c : Cursor) (fuel : Nat) : Except Fault (List Char × Cursor) :=
  match escape? c.peek with
  | some ch => .ok ([ch], c.next)
  | none =>
    match codeLength? c.peek with
    | some n =>
      let digits := c.next.rest.take n
      if digits.length == n && digits.all isHexDigit then
        (charOfCode (hexValue digits)).map fun ch => ([ch], c.next.advance n)
      else .error .malformed
    | none =>
      match c.lineBreak? with
      | some (_, c) => readEmptyLines [] c fuel
      | none => .error .malformed

/-- Reads a quoted scalar up to its closing quote, behind the reversed text `done`. -/
def readQuotedAux (quote : Char) (done : List Char) (c : Cursor) :
    Nat → Except Fault (List Char × Cursor)
  | 0 => .error .malformed
  | fuel + 1 =>
    let ch := c.peek
    if ch == quote then
      if quote == '\'' && c.peekAt 1 == quote then
        readQuotedAux quote (quote :: done) (c.advance 2) fuel
      else .ok (done.reverse, c.next)
    else if isBlankOrBreakOrEnd ch then
      match readQuotedBlanks c fuel with
      | .error f => .error f
      | .ok (s, c) => readQuotedAux quote (s.reverse ++ done) c fuel
    else if quote == '"' && ch == '\\' then
      match readEscape c.next fuel with
      | .error f => .error f
      | .ok (s, c) => readQuotedAux quote (s.reverse ++ done) c fuel
    else readQuotedAux quote (ch :: done) c.next fuel

/-- Reads a scalar between quotes. -/
def readQuoted (c : Cursor) (fuel : Nat) : Except Fault (Token × Cursor) :=
  match readQuotedAux c.peek [] c.next fuel with
  | .error f => .error f
  | .ok (s, c) => .ok (.scalar false s, c)

/-! ## Plain scalars -/

/-- Whether a character goes on a plain scalar. In a flow collection its marks end the scalar. -/
def isPlainChar (inFlow : Bool) (c : Char) (rest : List Char) : Bool :=
  !isBlankOrBreakOrEnd c &&
    !(c == ':' &&
      let next := rest.headD endMark
      isBlankOrBreakOrEnd next || (inFlow && ",[]\x7b\x7d".contains next)) &&
    !(inFlow && ",?[]\x7b\x7d".contains c)

/-- Reads spaces and line breaks from a place on; stops where a line begins with a document mark. -/
def readBreaks (done : List Char) (c : Cursor) : Nat → Option (List Char) × Cursor
  | 0 => (none, c)
  | fuel + 1 =>
    if c.peek == ' ' then readBreaks done c.next fuel
    else match c.lineBreak? with
      | none => (some done.reverse, c)
      | some (ch, c) =>
        if c.atSeparator then (none, c) else readBreaks (ch :: done) c fuel

/-- The blanks behind a part of a plain scalar. -/
structure Gap where
  /-- What the blanks stand for if the scalar goes on, or nothing if it cannot go on. -/
  text : List Char
  hasBreak : Bool

/-- Reads the blanks behind a part of a plain scalar. -/
def readGap (c : Cursor) (fuel : Nat) : Gap × Cursor :=
  let (spaces, c) := c.span (· == ' ')
  match c.lineBreak? with
  | none => (⟨spaces, false⟩, c)
  | some (first, c) =>
    if c.atSeparator then (⟨[], true⟩, c)
    else match readBreaks [] c fuel with
      | (none, c) => (⟨[], true⟩, c)
      | (some more, c) => (⟨folded first more, true⟩, c)

/-- Reads a plain scalar behind the reversed text `done`, after which `gap` was passed over. The
last component says whether a line break was passed after the last character. -/
def readPlainAux (inFlow : Bool) (indent : Int) (done : List Char) (gap : Gap) (c : Cursor) :
    Nat → List Char × Cursor × Bool
  | 0 => (done.reverse, c, gap.hasBreak)
  | fuel + 1 =>
    if c.peek == '#' then (done.reverse, c, gap.hasBreak)
    else
      let (s, c) := c.spanWith (isPlainChar inFlow)
      if s.isEmpty then (done.reverse, c, gap.hasBreak)
      else
        let done := s.reverse ++ gap.text.reverse ++ done
        let (gap, c) := readGap c fuel
        if gap.text.isEmpty || c.peek == '#' || (!inFlow && (c.column : Int) < indent) then
          (done.reverse, c, gap.hasBreak)
        else readPlainAux inFlow indent done gap c fuel

/-- Reads a plain scalar whose later lines are indented by `indent` at least. -/
def readPlain (inFlow : Bool) (indent : Int) (c : Cursor) (fuel : Nat) : Token × Cursor × Bool :=
  let (s, c, hasBreak) := readPlainAux inFlow indent [] ⟨[], false⟩ c fuel
  (.scalar true s, c, hasBreak)

/-! ## Block scalars -/

/-- What happens to the line breaks at the end of a block. -/
inductive Chomping
  | strip
  | clip
  | keep
  deriving DecidableEq, Repr

def chomping? (c : Char) : Option Chomping :=
  if c == '+' then some .keep else if c == '-' then some .strip else none

/-- Reads the digit of indentation of a block, if there is one. -/
def readIncrement (c : Cursor) : Except Fault (Option Nat × Cursor) :=
  let ch := c.peek
  if !ch.isDigit then .ok (none, c)
  else if ch == '0' then .error .malformed
  else .ok (some (ch.toNat - 48), c.next)

/-- Reads the indicators of a block in either order. -/
def readIndicators (c : Cursor) : Except Fault (Chomping × Option Nat × Cursor) := do
  let (chomp, n, c) ←
    match chomping? c.peek with
    | some chomp => do
      let (n, c) ← readIncrement c.next
      pure (chomp, n, c)
    | none => do
      let (n, c) ← readIncrement c
      match n, chomping? c.peek with
      | some n, some chomp => pure (chomp, some n, c.next)
      | n, _ => pure (.clip, n, c)
  if isSpaceOrBreakOrEnd c.peek then return (chomp, n, c) else throw .malformed

/-- Reads the breaks of the empty lines before a block's first line, and the widest indentation on
the way. -/
def readFirstBreaks (done : List Char) (widest : Nat) (c : Cursor) :
    Nat → List Char × Nat × Cursor
  | 0 => (done.reverse, widest, c)
  | fuel + 1 =>
    if c.peek == ' ' then
      let c := c.next
      readFirstBreaks done (max widest c.column) c fuel
    else match c.lineBreak? with
      | some (ch, c) => readFirstBreaks (ch :: done) widest c fuel
      | none => (done.reverse, widest, c)

/-- Reads the breaks of empty lines inside a block, up to the indentation of the next line. -/
def readBlockBreaks (indent : Nat) (done : List Char) (c : Cursor) : Nat → List Char × Cursor
  | 0 => (done.reverse, c)
  | fuel + 1 =>
    let c := c.skipIndent indent
    match c.lineBreak? with
    | some (ch, c) => readBlockBreaks indent (ch :: done) c fuel
    | none => (done.reverse, c)

/-- Reads the lines of a block from the start of one on, behind the reversed text `done` and the
breaks before the line. The result ends in the breaks after the last line. -/
def readBlockLines (isFolded : Bool) (indent : Nat) (done breaks : List Char) (c : Cursor) :
    Nat → List Char × List Char × List Char × Cursor
  | 0 => (done, [], breaks, c)
  | fuel + 1 =>
    let opensWithBlank := isBlank c.peek
    let (line, c) := c.span (!isBreakOrEnd ·)
    let done := line.reverse ++ breaks.reverse ++ done
    let (lineEnd, c) := match c.lineBreak? with
      | some (ch, c) => ([ch], c)
      | none => ([], c)
    let (breaks, c) := readBlockBreaks indent [] c fuel
    if c.column == indent && c.peek != endMark then
      let done :=
        -- Lines that begin at the indentation are joined; others keep the break between them.
        if isFolded && lineEnd == ['\n'] && !opensWithBlank && !isBlank c.peek then
          if breaks.isEmpty then ' ' :: done else done
        else lineEnd ++ done
      readBlockLines isFolded indent done breaks c fuel
    else (done, lineEnd, breaks, c)

/-- Reads a block scalar inside a collection at column `parent`. -/
def readBlock (parent : Int) (c : Cursor) (fuel : Nat) : Except Fault (Token × Cursor) := do
  let isFolded := c.peek == '>'
  let (chomp, increment, c) ← readIndicators c.next
  let c ← c.skipRestOfLine
  let least := max 1 (parent + 1).toNat
  let (indent, breaks, c) := match increment with
    | some n =>
      let indent := least + n - 1
      let (breaks, c) := readBlockBreaks indent [] c fuel
      (indent, breaks, c)
    | none =>
      -- Without a number the first lines tell how far the block is indented.
      let (breaks, widest, c) := readFirstBreaks [] 0 c fuel
      (max least widest, breaks, c)
  let (done, lineEnd, breaks, c) :=
    if c.column == indent && c.peek != endMark then
      readBlockLines isFolded indent [] breaks c fuel
    else ([], [], breaks, c)
  let text := done.reverse ++
    match chomp with
    | .strip => []
    | .clip => lineEnd
    | .keep => lineEnd ++ breaks
  return (.scalar false text, c)

end Winnow.Yaml
