import Winnow.Yaml.Scalar

/-!
# The tokens of a text

Block structure is read off columns: a token beyond the column of the innermost block opens a block,
one before it closes blocks. What may turn out to be a key is remembered until a value mark follows
it on the same line, and the key mark is then put in front of it.
-/

namespace Winnow.Yaml

/-- Something that may turn out to be a key. -/
structure Candidate where
  /-- The number of the token it begins with. -/
  token : Nat
  /-- A block mapping cannot go on with anything but a key here. -/
  isRequired : Bool
  index : Nat
  line : Nat
  column : Nat

/-- A candidate has to be on the same line as its value mark, and not too far before it. -/
def Candidate.isAlive (k : Candidate) (c : Cursor) : Bool :=
  k.line == c.line && c.index - k.index ≤ 1024

/-- What has been read of a text. -/
structure Reading where
  cursor : Cursor
  /-- The tokens so far, the last one first. -/
  tokens : List Token
  count : Nat
  /-- How many flow collections are open. -/
  flow : Nat
  /-- The column of the innermost block; before the first block there is none. -/
  indent : Int
  /-- The columns of the blocks around it. -/
  outer : List Int
  /-- Whether a candidate for a key may begin here. -/
  keyAllowed : Bool
  /-- The candidates by the depth of flow collections that they stand at. -/
  candidates : List (Nat × Candidate)

namespace Reading

def start (s : List Char) : Reading := ⟨.start s, [], 0, 0, -1, [], true, []⟩

def push (r : Reading) (t : Token) : Reading :=
  { r with tokens := t :: r.tokens, count := r.count + 1 }

/-- Puts a token in front of the token with number `n`. -/
def insertAt (r : Reading) (n : Nat) (t : Token) : Reading :=
  let after := r.count - n
  { r with tokens := r.tokens.take after ++ t :: r.tokens.drop after, count := r.count + 1 }

def candidate? (r : Reading) : Option Candidate := (r.candidates.find? (·.1 == r.flow)).map Prod.snd

def dropCandidate (r : Reading) : Reading :=
  { r with candidates := r.candidates.filter (·.1 != r.flow) }

/-- Gives up the candidate at this depth. -/
def giveUp (r : Reading) : Except Fault Reading :=
  if r.candidate?.any Candidate.isRequired then .error .malformed else .ok r.dropCandidate

/-- Gives up the candidates that are too far behind. -/
def giveUpStale (r : Reading) : Except Fault Reading :=
  let stale := r.candidates.filter fun k => !k.2.isAlive r.cursor
  if stale.any (·.2.isRequired) then .error .malformed
  else if stale.isEmpty then .ok r
  else .ok { r with candidates := r.candidates.filter fun k => k.2.isAlive r.cursor }

/-- How many tokens are settled: no key mark can come before them any more. -/
def settled (r : Reading) : Nat := r.candidates.foldl (fun n k => min n k.2.token) r.count

/-- Remembers the next token as a candidate. -/
def propose (r : Reading) : Except Fault Reading :=
  if !r.keyAllowed then .ok r
  else do
    let isRequired := r.flow == 0 && r.indent == r.cursor.column
    let r ← r.giveUp
    let k : Candidate :=
      ⟨r.count, isRequired, r.cursor.index, r.cursor.line, r.cursor.column⟩
    return { r with candidates := (r.flow, k) :: r.candidates }

/-- Closes the blocks beyond a column. -/
def closeBlocks (r : Reading) (column : Int) : Reading :=
  if r.flow > 0 then r else go r r.outer
where
  go (r : Reading) : List Int → Reading
    | [] => r
    | indent :: outer =>
      if r.indent > column then go { r.push .blockEnd with indent, outer } outer else r

/-- Opens a block at a column beyond the innermost one. -/
def openBlock (r : Reading) (column : Nat) : Option Reading :=
  if r.indent < column then some { r with indent := column, outer := r.indent :: r.outer } else none

/-- Opens a block of a kind at this place if there is none yet. -/
def enterBlock (r : Reading) (kind : Token) : Except Fault Reading :=
  if r.flow > 0 then .ok r
  else if !r.keyAllowed then .error .malformed
  else match r.openBlock r.cursor.column with
    | some r => .ok (r.push kind)
    | none => .ok r

/-- Reads the mark of one character and of a token. -/
def mark (r : Reading) (t : Token) : Reading := { r.push t with cursor := r.cursor.next }

/-- Passes over spaces, comments and line breaks. Outside of flow collections a new line may begin
with a key. -/
def skipToToken (r : Reading) : Nat → Reading
  | 0 => r
  | fuel + 1 =>
    let c := r.cursor.skip (· == ' ')
    let c := if c.peek == '#' then c.skip (!isBreakOrEnd ·) else c
    match c.lineBreak? with
    | none => { r with cursor := c }
    | some (_, c) =>
      { r with cursor := c, keyAllowed := r.keyAllowed || r.flow == 0 }.skipToToken fuel

/-- Passes over a byte order mark at the start of the text. -/
def skipOrderMark (r : Reading) : Reading :=
  if r.cursor.index == 0 && r.cursor.peek == '\uFEFF' then { r with cursor := r.cursor.next } else r

/-- Closes everything before a directive, a document mark or the end. -/
def endBlocks (r : Reading) : Except Fault Reading := do
  let r ← (r.closeBlocks (-1)).giveUp
  return { r with keyAllowed := false }

def readDocumentMark (r : Reading) (t : Token) : Except Fault Reading := do
  let r ← r.endBlocks
  return { r.push t with cursor := r.cursor.advance 3 }

def openFlow (r : Reading) (t : Token) : Except Fault Reading := do
  let r ← r.propose
  return { r.mark t with flow := r.flow + 1, keyAllowed := true }

def closeFlow (r : Reading) (t : Token) : Except Fault Reading := do
  if r.flow == 0 then throw .malformed
  let r ← r.giveUp
  return { r.mark t with flow := r.flow - 1, keyAllowed := false }

def readFlowEntry (r : Reading) : Except Fault Reading := do
  let r ← { r with keyAllowed := true }.giveUp
  return r.mark .flowEntry

def readBlockEntry (r : Reading) : Except Fault Reading := do
  let r ← r.enterBlock .blockSequence
  let r ← { r with keyAllowed := true }.giveUp
  return r.mark .blockEntry

def readKey (r : Reading) : Except Fault Reading := do
  let r ← r.enterBlock .blockMapping
  let r ← { r with keyAllowed := r.flow == 0 }.giveUp
  return r.mark .key

/-- Reads a value mark. The candidate before it becomes a key, which may open a block mapping. -/
def readValue (r : Reading) : Except Fault Reading := do
  match r.candidate? with
  | some k =>
    let r := r.dropCandidate.insertAt k.token .key
    let r := if r.flow > 0 then r else
      match r.openBlock k.column with
      | some r => r.insertAt k.token .blockMapping
      | none => r
    return { r.mark .value with keyAllowed := false }
  | none =>
    let r ← r.enterBlock .blockMapping
    return { r.mark .value with keyAllowed := r.flow == 0 }

/-- Reads a scalar or a property of a node, which may be the start of a key. -/
def readNodePart (r : Reading) (read : Cursor → Except Fault (Token × Cursor)) :
    Except Fault Reading := do
  let r ← r.propose
  let (t, c) ← read r.cursor
  return { r.push t with cursor := c, keyAllowed := false }

def readPlainScalar (r : Reading) (fuel : Nat) : Except Fault Reading := do
  let r ← r.propose
  let (t, c, hasBreak) := readPlain (r.flow > 0) (r.indent + 1) r.cursor fuel
  return { r.push t with cursor := c, keyAllowed := hasBreak }

def readBlockScalar (r : Reading) (fuel : Nat) : Except Fault Reading := do
  let r ← { r with keyAllowed := true }.giveUp
  let (t, c) ← readBlock r.indent r.cursor fuel
  return { r.push t with cursor := c }

/-- Whether a plain scalar begins here. -/
def startsPlain (r : Reading) : Bool :=
  let ch := r.cursor.peek
  let next := r.cursor.peekAt 1
  (!isBlankOrBreakOrEnd ch && !"-?:,[]\x7b\x7d#&*!|>'\"%@\x60".contains ch) ||
    (!isBlankOrBreakOrEnd next && (ch == '-' || (r.flow == 0 && (ch == '?' || ch == ':'))))

/-- Reads the token at this place, of which a text that has not ended has one. -/
def readToken (r : Reading) (fuel : Nat) : Except Fault Reading :=
  let c := r.cursor
  let ch := c.peek
  let atLineStart := c.column == 0
  -- In a flow collection nothing need follow a question mark or a colon.
  let markStands := r.flow > 0 || isBlankOrBreakOrEnd (c.peekAt 1)
  if ch == '%' && atLineStart then do
    let r ← r.endBlocks
    let (t, c) ← readDirective r.cursor fuel
    return { r.push t with cursor := c }
  else if atLineStart && c.atMarker '-' then r.readDocumentMark .documentStart
  else if atLineStart && c.atMarker '.' then r.readDocumentMark .documentEnd
  else if ch == '[' then r.openFlow .flowSequence
  else if ch == '\x7b' then r.openFlow .flowMapping
  else if ch == ']' then r.closeFlow .flowSequenceEnd
  else if ch == '\x7d' then r.closeFlow .flowMappingEnd
  else if ch == ',' then r.readFlowEntry
  else if ch == '-' && isBlankOrBreakOrEnd (c.peekAt 1) then r.readBlockEntry
  else if ch == '?' && markStands then r.readKey
  else if ch == ':' && markStands then r.readValue
  else if ch == '*' then r.readNodePart fun c => do
    let (name, c) ← readAnchor c
    return (.alias name, c)
  else if ch == '&' then r.readNodePart fun c => do
    let (name, c) ← readAnchor c
    return (.anchor name, c)
  else if ch == '!' then r.readNodePart (readTag · fuel)
  else if (ch == '|' || ch == '>') && r.flow == 0 then r.readBlockScalar fuel
  else if ch == '\'' || ch == '"' then r.readNodePart (readQuoted · fuel)
  else if r.startsPlain then r.readPlainScalar fuel
  else .error .malformed

/-- The tokens up to the settled ones, and a fault for the rest. -/
def broken (r : Reading) (settled : Nat) (f : Fault) : List Token :=
  (r.tokens.drop (r.count - settled)).reverse ++ [.fault f]

/-- Passes over blanks and closes the blocks that end before the next token. -/
def approach (r : Reading) (fuel : Nat) : Except Fault Reading := do
  let r ← (r.skipToToken fuel).giveUpStale
  return r.closeBlocks r.cursor.column

/-- All tokens. Every step reads a character at least. -/
def run (r : Reading) : Nat → List Token
  | 0 => r.broken r.count .malformed
  | fuel + 1 =>
    match r.giveUpStale with
    | .error f => r.broken r.settled f
    | .ok r =>
      let settled := r.settled
      match r.approach fuel with
      | .error f => r.broken settled f
      | .ok r =>
        if r.cursor.peek == endMark then
          match r.endBlocks with
          | .error f => r.broken settled f
          | .ok r => (r.push .finish).tokens.reverse
        else
          match r.readToken fuel with
          | .error f => r.broken settled f
          | .ok r => r.run fuel

end Reading

/-- The tokens of a text. A character that no document may hold spoils the whole text. -/
def tokens (s : List Char) : List Token :=
  if s.all isAllowed then (Reading.start s).skipOrderMark.run (s.length + 2)
  else [.fault .malformed]

end Winnow.Yaml
