import Winnow.Yaml.Tokens
import Winnow.Yaml.Tag
import Winnow.Assoc

/-!
# Nodes

The tree of a document: scalars, sequences and mappings with their tags. Aliases are replaced by the
nodes that they name. A node that names itself on its inside is no tree and is not read.
-/

namespace Winnow.Yaml

inductive Node
  | scalar (tag : Tag) (text : List Char)
  | sequence (tag : Tag) (items : List Node)
  | mapping (tag : Tag) (entries : List (Node × Node))
  deriving Repr

instance : Inhabited Node := ⟨.scalar .null []⟩

namespace Node

/-- The tag and the anchor of a node. -/
structure Properties where
  tag : Option String
  anchor : Option String

/-- A tag that leaves the kind of a node to its form. -/
def Properties.isOpen (p : Properties) : Bool := p.tag.all (· == "!")

/-- The kind of a collection. -/
def Properties.kind (p : Properties) (ordinary : Tag) : Tag :=
  match p.tag with
  | none => ordinary
  | some name => if name == "!" then ordinary else .ofName name

/-- The node of a scalar. A scalar without a tag is read by its form if it is plain. -/
def Properties.scalar (p : Properties) (isPlain : Bool) (text : List Char) : Node :=
  match p.tag with
  | none => .scalar (if isPlain then .ofPlain text else .text) text
  | some name => .scalar (if name == "!" then .ofPlain text else .ofName name) text

/-- A scalar that is not written. -/
def absent : Node := .scalar .null []

/-- What is known while nodes are read. -/
structure Scope where
  /-- The tokens that are left. -/
  tokens : List Token
  /-- The heads of tags by their handles. -/
  handles : Assoc String String
  /-- The named nodes; a node that is still being read is not known yet. -/
  anchors : Assoc String (Option Node)

/-- A step of reading nodes. -/
abbrev Step (α : Type) := StateT Scope (Except Fault) α

/-- The next token. -/
def peek : Step Token := do
  match (← get).tokens with
  | .fault f :: _ => throw f
  | t :: _ => return t
  | [] => throw .malformed

def drop : Step Unit := modify fun s => { s with tokens := s.tokens.drop 1 }

/-- Passes over a token if it is the next one. -/
def accept (t : Token) : Step Bool := do
  if (← peek) == t then
    drop
    return true
  else return false

def expect (t : Token) : Step Unit := do
  if !(← accept t) then throw .malformed

/-- Whether one of several tokens is the next one. -/
def isAt (ts : List Token) : Step Bool := return ts.contains (← peek)

/-- The full tag of a suffix behind a handle. -/
def fullTag (handle : Option String) (suffix : String) : Step String := do
  match handle with
  | none => return suffix
  | some h =>
    match (← get).handles.get? h with
    | some head => return head ++ suffix
    | none => throw .malformed

def readTag? : Step (Option (Option String × String)) := do
  match ← peek with
  | .tag handle suffix =>
    drop
    return some (handle, suffix)
  | _ => return none

def readAnchor? : Step (Option String) := do
  match ← peek with
  | .anchor name =>
    drop
    return some name
  | _ => return none

/-- Reads the properties of a node in either order. -/
def readProperties : Step Properties := do
  let anchor ← readAnchor?
  let tag ← readTag?
  let anchor ← if anchor.isNone && tag.isSome then readAnchor? else pure anchor
  let tag ← match tag with
    | none => pure none
    | some (handle, suffix) => some <$> fullTag handle suffix
  return ⟨tag, anchor⟩

/-- Remembers a node under its anchor. -/
def name (anchor : Option String) (node : Option Node) : Step Unit :=
  match anchor with
  | none => pure ()
  | some a => modify fun s => { s with anchors := s.anchors.insert a node }

/-- An anchor can be given once. -/
def checkAnchor (anchor : Option String) : Step Unit := do
  match anchor with
  | none => return ()
  | some a => if (← get).anchors.contains a then throw .malformed

/-- The node that an alias names. -/
def named (a : String) : Step Node := do
  match (← get).anchors.get? a with
  | some (some node) => return node
  | some none => throw (.scalar (.unconvertible (.unread .cycle)))
  | none => throw .malformed

/-- Where a node stands decides which forms it can have. -/
inductive Place
  | flow
  | block
  /-- Behind a key or value mark a sequence need not be indented. -/
  | entry
  deriving DecidableEq

def Place.isBlock : Place → Bool
  | .flow => false
  | _ => true

mutual

/-- Reads a node. -/
def read (place : Place) : Nat → Step Node
  | 0 => throw .malformed
  | fuel + 1 => do
    match ← peek with
    | .alias a =>
      drop
      named a
    | _ =>
      let p ← readProperties
      let collection (start : Token) (isDropped : Bool) (read : Step Node) : Step Node := do
        checkAnchor p.anchor
        name p.anchor none
        if isDropped then expect start
        let node ← read
        name p.anchor (some node)
        return node
      let sequence := Node.sequence (p.kind .list)
      let mapping := Node.mapping (p.kind .map)
      match ← peek with
      | .scalar isPlain text =>
        checkAnchor p.anchor
        drop
        let node := p.scalar isPlain text
        name p.anchor (some node)
        return node
      | .flowSequence => collection .flowSequence true (sequence <$> readFlowItems true [] fuel)
      | .flowMapping => collection .flowMapping true (mapping <$> readFlowEntries true [] fuel)
      | .blockEntry =>
        if place = .entry then
          collection .blockEntry false (sequence <$> readBareItems [] fuel)
        else readAbsent p
      | .blockSequence =>
        if place.isBlock then collection .blockSequence true (sequence <$> readItems [] fuel)
        else readAbsent p
      | .blockMapping =>
        if place.isBlock then collection .blockMapping true (mapping <$> readEntries [] fuel)
        else readAbsent p
      | _ => readAbsent p

/-- A node that is not written, which needs a property. -/
def readAbsent (p : Properties) : Step Node := do
  if p.tag.isNone && p.anchor.isNone then throw .malformed
  checkAnchor p.anchor
  let node := if p.isOpen then absent else p.scalar false []
  name p.anchor (some node)
  return node

/-- Reads the items of a block sequence behind the reversed list `done`. -/
def readItems (done : List Node) : Nat → Step (List Node)
  | 0 => throw .malformed
  | fuel + 1 => do
    if ← accept .blockEntry then
      let item ← readUnless [.blockEntry, .blockEnd] .block fuel
      readItems (item :: done) fuel
    else
      expect .blockEnd
      return done.reverse

/-- Reads the items of a sequence that has no block of its own. -/
def readBareItems (done : List Node) : Nat → Step (List Node)
  | 0 => throw .malformed
  | fuel + 1 => do
    if ← accept .blockEntry then
      let item ← readUnless [.blockEntry, .key, .value, .blockEnd] .block fuel
      readBareItems (item :: done) fuel
    else return done.reverse

/-- Reads a node unless one of several tokens stands in its place. -/
def readUnless (ends : List Token) (place : Place) : Nat → Step Node
  | 0 => throw .malformed
  | fuel + 1 => do
    if ← isAt ends then return absent else read place fuel

/-- Reads the entries of a block mapping. -/
def readEntries (done : List (Node × Node)) : Nat → Step (List (Node × Node))
  | 0 => throw .malformed
  | fuel + 1 => do
    let ends := [Token.key, .value, .blockEnd]
    if ← accept .key then
      let key ← readUnless ends .entry fuel
      let value ← if ← accept .value then readUnless ends .entry fuel else pure absent
      readEntries ((key, value) :: done) fuel
    else
      expect .blockEnd
      return done.reverse

/-- Reads the items of a flow sequence; an entry of a mapping may stand for a mapping. -/
def readFlowItems (isFirst : Bool) (done : List Node) : Nat → Step (List Node)
  | 0 => throw .malformed
  | fuel + 1 => do
    if ← accept .flowSequenceEnd then return done.reverse
    if !isFirst then expect .flowEntry
    let ends := [Token.flowEntry, .flowSequenceEnd]
    if ← accept .key then
      let key ← readUnless (.value :: ends) .flow fuel
      let value ← if ← accept .value then readUnless ends .flow fuel else pure absent
      readFlowItems false (.mapping .map [(key, value)] :: done) fuel
    else if ← accept .flowSequenceEnd then return done.reverse
    else
      let item ← read .flow fuel
      readFlowItems false (item :: done) fuel

/-- Reads the entries of a flow mapping; a node without a mark is a key without a value. -/
def readFlowEntries (isFirst : Bool) (done : List (Node × Node)) :
    Nat → Step (List (Node × Node))
  | 0 => throw .malformed
  | fuel + 1 => do
    if ← accept .flowMappingEnd then return done.reverse
    if !isFirst then expect .flowEntry
    let ends := [Token.flowEntry, .flowMappingEnd]
    if ← accept .key then
      let key ← readUnless (.value :: ends) .flow fuel
      let value ← if ← accept .value then readUnless ends .flow fuel else pure absent
      readFlowEntries false ((key, value) :: done) fuel
    else if ← accept .flowMappingEnd then return done.reverse
    else
      let key ← read .flow fuel
      readFlowEntries false ((key, absent) :: done) fuel

end

/-! ## Documents -/

/-- The handles that need no directive. -/
def commonHandles : Assoc String String := [("!", "!"), ("!!", Tag.family)]

/-- Reads the directives of a document and collects the handles that they define. -/
def readDirectives (hasVersion : Bool) (handles : Assoc String String) :
    Nat → Step (Assoc String String)
  | 0 => throw .malformed
  | fuel + 1 => do
    match ← peek with
    | .directive d =>
      drop
      match d with
      | .version major =>
        if hasVersion || major != 1 then throw .malformed
        readDirectives true handles fuel
      | .tag handle head =>
        if handles.contains handle then throw .malformed
        readDirectives hasVersion (handles.insert handle head) fuel
      | .other => readDirectives hasVersion handles fuel
    | _ => return handles

/-- Reads the start of a document that is marked, with its directives. -/
def readStart (fuel : Nat) : Step Unit := do
  let handles ← readDirectives false [] fuel
  expect .documentStart
  modify fun s => { s with handles := commonHandles.merge handles }

/-- Passes over document ends. -/
def skipEnds : Nat → Step Unit
  | 0 => throw .malformed
  | fuel + 1 => do if ← accept .documentEnd then skipEnds fuel

/-- Reads the only document, if there is one. -/
def readDocument (fuel : Nat) : Step (Option Node) := do
  let node ←
    match ← peek with
    | .finish => pure none
    | .directive _ | .documentStart => do
      readStart fuel
      let t ← peek
      let isEmpty := match t with
        | .directive _ | .documentStart | .documentEnd | .finish => true
        | _ => false
      some <$> if isEmpty then pure absent else read .block fuel
    | _ => some <$> read .block fuel
  if node.isSome then
    skipEnds fuel
    if (← peek) != .finish then
      readStart fuel
      throw .malformed
  return node

/-- The tree that tokens make up, if they make up one. -/
def ofTokens (tokens : List Token) : Except Fault (Option Node) :=
  (readDocument (4 * tokens.length + 8)).run' ⟨tokens, commonHandles, []⟩

end Node

end Winnow.Yaml
