import Winnow.Assoc
import Winnow.Regex.Syntax
import Winnow.Decimal.Integer
import Winnow.Text.IdentifierTable

/-!
# Reading expressions

The written form of expressions. Groups are numbered by their opening parentheses, also across
several expressions that are read one after the other into one scope: what a number refers to then
depends on what was read before.

One escape is left out: the names of characters are not in the tables of this library, so whether
`\N` with a name in braces stands for a character is not decided (`Fault.namedCharacter`).
-/

namespace Winnow.Regex

/-- Why a text is no expression. -/
inductive Fault
  | malformed
  /-- A repetition count beyond all bounds. -/
  | countTooLarge
  /-- A repetition count with more digits than are read. -/
  | tooManyDigits (count : Nat)
  /-- Contradictory flags for the whole expression. -/
  | flagClash
  /-- A character that is given by its name. -/
  | namedCharacter
  deriving DecidableEq, Repr

/-- A character of an expression, or a character after a backslash. -/
structure Token where
  escaped : Bool
  char : Char
  deriving DecidableEq, Repr

/-- Pairs each backslash with the character after it. -/
def Token.ofChars? : List Char → Option (List Token)
  | [] => some []
  | ['\\'] => none
  | '\\' :: c :: rest => (Token.ofChars? rest).map (⟨true, c⟩ :: ·)
  | c :: rest => (Token.ofChars? rest).map (⟨false, c⟩ :: ·)

/-- What flags change about the meaning of the text that follows. -/
structure Flags where
  caseless : Bool
  multiline : Bool
  dotAll : Bool
  ascii : Bool
  verbose : Bool
  deriving DecidableEq, Repr

def Flags.none : Flags := ⟨false, false, false, false, false⟩

def Flags.mode (f : Flags) : Mode := ⟨f.caseless, f.ascii⟩

/-- What has been read so far: the groups with their names and, once closed, their widths. -/
structure Scope where
  /-- The number of the next group. -/
  next : Nat
  names : Assoc String Nat
  closed : Assoc Nat Width
  /-- While a lookbehind is read, the number of the first group inside it. -/
  lookbehind : Option Nat
  /-- Groups that conditions refer to by number, which may come later. -/
  awaited : List Nat
  /-- Whether some lookbehind has no fixed width. -/
  unfixed : Bool
  deriving Repr

def Scope.initial : Scope := ⟨1, [], [], none, [], false⟩

/-- The state of a reader. -/
structure Reader where
  rest : List Token
  scope : Scope
  /-- Flags for the whole expression that were given at its start. -/
  global : List Char
  deriving Repr

abbrev Read := StateT Reader (Except Fault)

namespace Read

def fail {α : Type} : Read α := throw .malformed

def peek : Read (Option Token) := do return (← get).rest.head?

def advance : Read Unit := modify fun r => { r with rest := r.rest.tail }

def next : Read Token := do
  match (← get).rest with
  | [] => fail
  | t :: rest => modify fun r => { r with rest := rest }; return t

/-- Takes the next character if it is `c` without a backslash. -/
def accept (c : Char) : Read Bool := do
  if (← peek) = some ⟨false, c⟩ then advance; return true
  else return false

def expect (c : Char) : Read Unit := do
  unless ← accept c do fail

/-- Takes at most `n` characters that satisfy `ok` and have no backslash. -/
def takeWhile (ok : Char → Bool) : Nat → Read (List Char)
  | 0 => return []
  | n + 1 => do
    match ← peek with
    | some ⟨false, c⟩ =>
      if ok c then
        advance
        return c :: (← takeWhile ok n)
      else return []
    | _ => return []

/-- Takes everything up to `c`, which must come, as the text of a non-empty name. -/
def takeUntil (c : Char) : Read String := do
  let rest := (← get).rest
  let name := rest.takeWhile (· ≠ ⟨false, c⟩)
  if name.isEmpty || name.length = rest.length then fail
  modify fun r => { r with rest := rest.drop (name.length + 1) }
  return String.ofList (name.flatMap fun t => if t.escaped then ['\\', t.char] else [t.char])

def modifyScope (f : Scope → Scope) : Read Unit := modify fun r => { r with scope := f r.scope }

end Read

open Read

def isOctal (c : Char) : Bool := '0' ≤ c && c ≤ '7'

def isHex (c : Char) : Bool := c.isDigit || ('a' ≤ c && c ≤ 'f') || ('A' ≤ c && c ≤ 'F')

def hexValue (c : Char) : Nat :=
  if c.isDigit then c.toNat - 48 else if 'a' ≤ c then c.toNat - 87 else c.toNat - 55

/-- The value of digits in a base up to sixteen. -/
def digitsValue (base : Nat) (ds : List Char) : Nat :=
  ds.foldl (fun acc c => acc * base + hexValue c) 0

/-- A name of a group. -/
def isIdentifier (s : String) : Bool :=
  let isStart (c : Char) := Text.inRanges c.toNat Text.identifierStartRanges
  match s.toList with
  | [] => false
  | c :: rest =>
    isStart c && rest.all fun c => isStart c || Text.inRanges c.toNat Text.identifierExtendRanges

/-- What an escape stands for: a code point or a class. -/
inductive Atom
  | code (n : Nat)
  | named (k : CharClass) (negated : Bool)
  deriving DecidableEq, Repr

/-- Escapes for single control characters. -/
def controlEscape? (c : Char) : Option Nat :=
  match c with
  | 'a' => some 7
  | 'b' => some 8
  | 'f' => some 12
  | 'n' => some 10
  | 'r' => some 13
  | 't' => some 9
  | 'v' => some 11
  | _ => none

def classEscape? (c : Char) : Option Atom :=
  match c with
  | 'd' => some (.named .digit false)
  | 'D' => some (.named .digit true)
  | 's' => some (.named .space false)
  | 'S' => some (.named .space true)
  | 'w' => some (.named .word false)
  | 'W' => some (.named .word true)
  | _ => none

/-- Exactly `n` hexadecimal digits. -/
def hexEscape (n : Nat) : Read Atom := do
  let ds ← takeWhile isHex n
  if ds.length ≠ n then fail
  let value := digitsValue 16 ds
  if value > 0x10FFFF then fail
  return .code value

/-- An octal number of up to three digits, of which `head` are read. -/
def octalEscape (ds : List Char) : Read Atom := do
  let value := digitsValue 8 ds
  if value > 0o377 then fail
  return .code value

/-- A character by its name, which is letters, digits, spaces and hyphens of ASCII. -/
def namedEscape : Read Atom := do
  expect '\x7b'
  let name ← takeUntil '\x7d'
  if !name.toList.all fun c => c.isAlphanum || c = ' ' || c = '-' then fail
  throw .namedCharacter

/-- Escapes that mean the same inside and outside of sets. -/
def plainEscape (c : Char) : Read Atom :=
  match c with
  | 'x' => hexEscape 2
  | 'u' => hexEscape 4
  | 'U' => hexEscape 8
  | 'N' => namedEscape
  | _ => if c.isAlphanum then fail else return .code c.toNat

/-- An escape inside a set. -/
def setEscape (c : Char) : Read Atom := do
  match controlEscape? c, classEscape? c with
  | some n, _ => return .code n
  | _, some a => return a
  | none, none =>
    if isOctal c then octalEscape (c :: (← takeWhile isOctal 2))
    else plainEscape c

/-- Expressions for single characters. -/
def Flags.literal (f : Flags) (n : Nat) : Node :=
  let c := Char.ofNat n
  if c.toNat ≠ n then .set f.mode false []
  else if f.caseless then .set f.mode false [.range n n]
  else .char c

def Atom.node (f : Flags) : Atom → Node
  | .code n => f.literal n
  | .named k negated => .set f.mode false [.named k negated]

def Atom.item : Atom → SetItem
  | .code n => .range n n
  | .named k negated => .named k negated

/-- The part of a set after one of its members has been opened by `t`. -/
def setMember (t : Token) : Read Atom :=
  if t.escaped then setEscape t.char else return .code t.char.toNat

/-- The members of a set up to its closing bracket, behind those in `items`, which are reversed.
A closing bracket at the start is a member. -/
def setItems : Nat → List SetItem → Read (List SetItem)
  | 0, _ => fail
  | fuel + 1, items => do
    let t ← next
    if t = ⟨false, ']'⟩ && !items.isEmpty then return items.reverse
    let first ← setMember t
    if ← accept '-' then
      let t ← next
      if t = ⟨false, ']'⟩ then return (.range 45 45 :: first.item :: items).reverse
      match first, ← setMember t with
      | .code lo, .code hi =>
        if hi < lo then fail
        setItems fuel (.range lo hi :: items)
      | _, _ => fail
    else setItems fuel (first.item :: items)

/-- A set after its opening bracket. -/
def readSet (f : Flags) : Read Node := do
  let negated ← accept '^'
  let items ← setItems ((← get).rest.length + 1) []
  return .set f.mode negated items

/-- Whether the group is closed, so that it can be referred to. -/
def Scope.isClosed (s : Scope) (i : Nat) : Bool := s.closed.contains i

/-- References from inside a lookbehind must name groups that were closed before it. -/
def checkLookbehind (i : Nat) : Read Unit := do
  let s := (← get).scope
  match s.lookbehind with
  | none => return ()
  | some first => if !s.isClosed i || i ≥ first then fail

/-- A reference to a group. -/
def readReference (f : Flags) (i : Nat) : Read Node := do
  let s := (← get).scope
  if i ≥ s.next || !s.isClosed i then fail
  checkLookbehind i
  return .reference f.mode i

/-- What stands before a quantifier. -/
inductive Operand
  | anchor
  | repeated
  | plain
  deriving DecidableEq, Repr

/-- An element of a sequence. -/
structure Item where
  node : Node
  operand : Operand
  deriving Repr

def Item.plain (n : Node) : Item := ⟨n, .plain⟩

/-- An escape outside of sets. Two digits are a reference, three octal digits are a character. -/
def readEscape (f : Flags) (c : Char) : Read Item := do
  match c with
  | 'A' => return ⟨.anchor .textStart, .anchor⟩
  | 'Z' => return ⟨.anchor .textEnd, .anchor⟩
  | 'b' => return ⟨.anchor (.wordEdge false f.ascii), .anchor⟩
  | 'B' => return ⟨.anchor (.wordEdge true f.ascii), .anchor⟩
  | _ =>
    match classEscape? c, controlEscape? c with
    | some a, _ => return .plain (a.node f)
    | _, some n => return .plain (f.literal n)
    | none, none =>
      if c = '0' then
        let a ← octalEscape (c :: (← takeWhile isOctal 2))
        return .plain (a.node f)
      else if c.isDigit then
        match ← takeWhile Char.isDigit 1 with
        | [d] =>
          let third ← if isOctal c && isOctal d then takeWhile isOctal 1 else pure []
          if third.isEmpty then return .plain (← readReference f (digitsValue 10 [c, d]))
          else return .plain ((← octalEscape (c :: d :: third)).node f)
        | _ => return .plain (← readReference f (digitsValue 10 [c]))
      else return .plain ((← plainEscape c).node f)

/-- Counts that a repetition may not reach. -/
def countLimit : Nat := 4294967295

/-- A count of repetitions; no digits mean none. -/
def readCount (ds : List Char) : Read Nat := do
  if ds.length > Integer.maxDigits then throw (.tooManyDigits ds.length)
  let count := digitsValue 10 ds
  if count ≥ countLimit then throw .countTooLarge
  return count

/-- The bounds of a repetition, or `none` if the brace that was read is a plain character. -/
def readBounds : Read (Option (Nat × Option Nat)) := do
  if (← peek) = some ⟨false, '\x7d'⟩ then return none
  let start := (← get).rest
  let lo ← takeWhile Char.isDigit start.length
  let hi ← if ← accept ',' then takeWhile Char.isDigit start.length else pure lo
  if !(← accept '\x7d') then
    modify fun r => { r with rest := start }
    return none
  let least ← readCount lo
  if hi.isEmpty then return some (least, none)
  let most ← readCount hi
  if most < least then fail
  return some (least, some most)

/-- Which number of repetitions the mark behind a quantifier prefers. -/
def readGreed : Read Greed := do
  if ← accept '?' then return .lazy
  else if ← accept '+' then return .possessive
  else return .greedy

/-- Repeats the last element of a reversed sequence. -/
def repeatLast (least : Nat) (most : Option Nat) : List Item → Read (List Item)
  | ⟨node, .plain⟩ :: items => return ⟨.loop (← readGreed) least most node, .repeated⟩ :: items
  | _ => fail

/-- The letters that name flags. -/
def isFlag (c : Char) : Bool := "iLmsxatu".toList.contains c

/-- Flags that are turned on, after the first of them, up to the character that ends them. -/
def readFlags : Nat → List Char → Read (List Char × Char)
  | 0, _ => fail
  | fuel + 1, on => do
    if on.contains 'L' || (on.contains 'a' && on.contains 'u') then fail
    let t ← next
    if t.escaped then fail
    if t.char = ')' || t.char = '-' || t.char = ':' then return (on, t.char)
    if !isFlag t.char then fail
    readFlags fuel (t.char :: on)

/-- Flags that are turned off, up to the colon. -/
def readFlagsOff : Nat → List Char → Read (List Char)
  | 0, _ => fail
  | fuel + 1, off => do
    let t ← next
    if t = ⟨false, ':'⟩ && !off.isEmpty then return off
    if t.escaped || !isFlag t.char || "aLu".toList.contains t.char then fail
    readFlagsOff fuel (t.char :: off)

/-- The flags inside a group that turns some on and some off. -/
def Flags.change (f : Flags) (on off : List Char) : Flags :=
  let has (c : Char) (old : Bool) := (old || on.contains c) && !off.contains c
  { caseless := has 'i' f.caseless
    multiline := has 'm' f.multiline
    dotAll := has 's' f.dotAll
    ascii := (f.ascii && !on.contains 'u') || on.contains 'a'
    verbose := has 'x' f.verbose }

/-- Opens a group, named or not. -/
def openGroup (name : Option String) : Read Nat := do
  let s := (← get).scope
  match name with
  | none => modifyScope fun s => { s with next := s.next + 1 }
  | some n =>
    if s.names.contains n then fail
    modifyScope fun s => { s with next := s.next + 1, names := s.names.insert n s.next }
  return s.next

/-- The width of an expression whose references are to closed groups. -/
def Scope.width (s : Scope) (node : Node) : Width :=
  node.width fun i => (s.closed.get? i).getD (.exactly 0)

/-- Closes a group. -/
def closeGroup (i : Nat) (body : Node) : Read Unit :=
  modifyScope fun s => { s with closed := s.closed.insert i (s.width body) }

/-- Marks where the outermost lookbehind begins, and returns the mark as it was before. -/
def enterLookbehind : Read (Option Nat) := do
  let outer := (← get).scope.lookbehind
  modifyScope fun s => { s with lookbehind := outer <|> some s.next }
  return outer

/-- A lookbehind for an expression, which should have a fixed width that is still counted. -/
def leaveLookbehind (outer : Option Nat) (negated : Bool) (body : Node) : Read Item := do
  let width := ((← get).scope.width body).fixed?.filter (· < countLimit)
  modifyScope fun s => { s with lookbehind := outer, unfixed := s.unfixed || width.isNone }
  return .plain (.behind negated (width.getD 0) body)

/-- How a parenthesis opens. -/
inductive Opening
  | group (name : Option String)
  | plain (on off : List Char)
  | atomic
  | look (back negated : Bool)
  | condition (index : Nat)
  /-- Nothing to be read inside. -/
  | done (item : Option Item)
  /-- Flags for the whole expression. -/
  | globalFlags (on : List Char)
  deriving Repr

/-- The group that a condition names: a name that is known, or a number as people write it. -/
def readConditionIndex : Read Nat := do
  let name ← takeUntil ')'
  let s := (← get).scope
  if isIdentifier name then
    match s.names.get? name with
    | none => fail
    | some i => return i
  else
    match Integer.read 10 name.toList with
    | .error _ => fail
    | .ok i =>
      if i ≤ 0 then fail
      modifyScope fun s => { s with awaited := i.toNat :: s.awaited }
      return i.toNat

/-- What follows an opening parenthesis up to the body of the group. -/
def readOpening (f : Flags) : Read Opening := do
  if !(← accept '?') then return .group none
  let t ← next
  if t.escaped then fail
  match t.char with
  | 'P' =>
    if ← accept '<' then
      let name ← takeUntil '>'
      if !isIdentifier name then fail
      return .group (some name)
    else if ← accept '=' then
      let name ← takeUntil ')'
      if !isIdentifier name then fail
      match (← get).scope.names.get? name with
      | none => fail
      | some i => return .done (some (.plain (← readReference f i)))
    else fail
  | ':' => return .plain [] []
  | '>' => return .atomic
  | '=' => return .look false false
  | '!' => return .look false true
  | '<' =>
    let t ← next
    if t = ⟨false, '='⟩ then return .look true false
    else if t = ⟨false, '!'⟩ then return .look true true
    else fail
  | '#' =>
    -- A remark goes up to the next parenthesis.
    let rest := (← get).rest.dropWhile (· ≠ ⟨false, ')'⟩)
    if rest.isEmpty then fail
    modify fun r => { r with rest := rest.tail }
    return .done none
  | '(' =>
    let i ← readConditionIndex
    checkLookbehind i
    return .condition i
  | c =>
    -- The flag named t is for the whole expression only: no group sets it or puts it off.
    let fuel := (← get).rest.length + 1
    if c = '-' then
      let off ← readFlagsOff fuel []
      if off.contains 't' then fail
      return .plain [] off
    if !isFlag c then fail
    let (on, stop) ← readFlags fuel [c]
    if stop = ')' then return .globalFlags on
    if on.contains 't' then fail
    let off ← if stop = '-' then readFlagsOff fuel [] else pure []
    if off.contains 't' || on.any off.contains then fail
    return .plain on off

def Node.join : List Node → Node
  | [] => .empty
  | [n] => n
  | n :: rest => .seq n (join rest)

def isBlank (c : Char) : Bool := c = ' ' || ('\t' ≤ c && c ≤ '\r')

mutual

/-- Alternatives up to a closing parenthesis or the end. At the top level the flags for the whole
expression are looked up again for each alternative. -/
def readAlternatives (fuel : Nat) (f : Flags) (top first : Bool) : Read Node := do
  match fuel with
  | 0 => fail
  | fuel + 1 =>
    let left ← readSequence fuel f (top && first) []
    if ← accept '|' then
      let global := (← get).global
      let f := if top then { f with verbose := global.contains 'x' } else f
      return .alt left (← readAlternatives fuel f top false)
    else return left

/-- A sequence behind the reversed elements in `items`. -/
def readSequence (fuel : Nat) (f : Flags) (first : Bool) (items : List Item) : Read Node := do
  match fuel with
  | 0 => fail
  | fuel + 1 =>
    let finished := Node.join (items.reverse.map Item.node)
    match ← peek with
    | none => return finished
    | some ⟨true, c⟩ =>
      advance
      readSequence fuel f first ((← readEscape f c) :: items)
    | some ⟨false, c⟩ =>
      if c = '|' || c = ')' then return finished
      advance
      -- Verbose expressions leave out blanks, and what is behind a number sign on its line.
      if f.verbose && isBlank c then readSequence fuel f first items
      else if f.verbose && c = '#' then
        modify fun r => { r with rest := (r.rest.dropWhile (· ≠ ⟨false, '\n'⟩)).tail }
        readSequence fuel f first items
      else match c with
      | '[' => readSequence fuel f first (.plain (← readSet f) :: items)
      | '.' =>
        readSequence fuel f first (.plain (if f.dotAll then .any else .notLineFeed) :: items)
      | '^' =>
        let a := if f.multiline then Anchor.lineStart else .textStart
        readSequence fuel f first (⟨.anchor a, .anchor⟩ :: items)
      | '$' =>
        let a := if f.multiline then Anchor.lineEnd else .lastLineEnd
        readSequence fuel f first (⟨.anchor a, .anchor⟩ :: items)
      | '*' => readSequence fuel f first (← repeatLast 0 none items)
      | '+' => readSequence fuel f first (← repeatLast 1 none items)
      | '?' => readSequence fuel f first (← repeatLast 0 (some 1) items)
      | '\x7b' =>
        match ← readBounds with
        | none => readSequence fuel f first (.plain (f.literal c.toNat) :: items)
        | some (least, most) => readSequence fuel f first (← repeatLast least most items)
      | '(' =>
        match ← readOpening f with
        | .done none => readSequence fuel f first items
        | .done (some item) => readSequence fuel f first (item :: items)
        | .globalFlags on =>
          -- Flags for the whole expression are read at its very beginning only.
          if !first || !items.isEmpty then fail
          modify fun r => { r with global := on ++ r.global }
          let global := (← get).global
          readSequence fuel { f with verbose := global.contains 'x' } first items
        | opening =>
          let item ← readGroup fuel f opening
          expect ')'
          readSequence fuel f first (item :: items)
      | _ => readSequence fuel f first (.plain (f.literal c.toNat) :: items)

/-- The body of a group. -/
def readGroup (fuel : Nat) (f : Flags) (opening : Opening) : Read Item := do
  match fuel with
  | 0 => fail
  | fuel + 1 =>
    match opening with
    | .group name =>
      let i ← openGroup name
      let body ← readAlternatives fuel f false false
      if (← peek) ≠ some ⟨false, ')'⟩ then fail
      closeGroup i body
      return .plain (.group i body)
    | .plain on off => return .plain (← readAlternatives fuel (f.change on off) false false)
    | .atomic => return .plain (.atomic (← readAlternatives fuel f false false))
    | .look false negated =>
      return .plain (.ahead negated (← readAlternatives fuel f false false))
    | .look true negated =>
      let outer ← enterLookbehind
      let body ← readAlternatives fuel f false false
      leaveLookbehind outer negated body
    | .condition i =>
      let yes ← readSequence fuel f false []
      if ← accept '|' then
        let no ← readSequence fuel f false []
        return .plain (.condition i yes no)
      else return .plain (.condition i yes .empty)
    | .done _ => fail
    | .globalFlags _ => fail

end

/-- Checks that can only be made when everything has been read. -/
def Scope.settle (s : Scope) : Except Fault Unit :=
  if s.awaited.any (· ≥ s.next) || s.unfixed then .error .malformed else .ok ()

/-- Reads a part of an expression into a scope, as if it stood between parentheses. -/
def readInto (s : Scope) (text : List Char) : Except Fault (Node × Scope) :=
  match Token.ofChars? text with
  | none => .error .malformed
  | some tokens => do
    let (node, r) ← (readAlternatives (3 * tokens.length + 3) .none false false).run ⟨tokens, s, []⟩
    if r.rest.isEmpty then return (node, r.scope) else .error .malformed

/-- Reads a whole expression. -/
def read (text : List Char) : Except Fault Node :=
  match Token.ofChars? text with
  | none => .error .malformed
  | some tokens => do
    let (node, r) ←
      (readAlternatives (3 * tokens.length + 3) .none true true).run ⟨tokens, .initial, []⟩
    if r.global.contains 'a' && r.global.contains 'u' then .error .flagClash
    else if !r.rest.isEmpty then .error .malformed
    else
      r.scope.settle
      -- The flag named t is for expressions that repeat nothing.
      if r.global.contains 't' && node.repeats then .error .malformed
      return node

end Winnow.Regex
