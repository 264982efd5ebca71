import Winnow.Assoc
import Winnow.Regex.Syntax
import Winnow.Text.Character

/-!
# Matching

An expression is tried at a place in a text, and what remains to be done is tried after each of its
ways to match in their order of preference; the first way that carries through decides. A loop
stops as soon as a repetition beyond the least number takes nothing, so matching always ends.
-/

namespace Winnow.Regex

/-- A place in a text: the text before it reversed, the text after it, and what each group has
taken so far. -/
structure Place where
  position : Nat
  before : List Char
  after : List Char
  groups : Assoc Nat (List Char)
  deriving DecidableEq, Repr

namespace Place

def start (text : List Char) : Place := ⟨0, [], text, []⟩

/-- The place after the next character, if the character satisfies `accept`. -/
def step? (accept : Char → Bool) (p : Place) : Option Place :=
  match p.after with
  | [] => none
  | c :: rest =>
    if accept c then
      some { p with position := p.position + 1, before := c :: p.before, after := rest }
    else none

/-- The place `n` characters earlier. -/
def back? : Nat → Place → Option Place
  | 0, p => some p
  | n + 1, p =>
    match p.before with
    | [] => none
    | c :: rest =>
      back? n { p with position := p.position - 1, before := rest, after := c :: p.after }

/-- What was taken on the way from `p` to `q`. -/
def taken (p q : Place) : List Char := p.after.take (q.position - p.position)

def capture (i : Nat) (text : List Char) (p : Place) : Place :=
  { p with groups := p.groups.insert i text }

def group? (i : Nat) (p : Place) : Option (List Char) := p.groups.get? i

end Place

def isAsciiSpace (c : Char) : Bool := c == ' ' || ('\t' ≤ c && c ≤ '\r')

def isAsciiWord (c : Char) : Bool := c.isAlphanum || c == '_'

def CharClass.holds (ascii : Bool) (c : Char) : CharClass → Bool
  | .digit => if ascii then c.isDigit else Text.isDigit c
  | .space => if ascii then isAsciiSpace c else Text.isSpace c
  | .word => if ascii then isAsciiWord c else Text.isWord c

/-- The characters that stand for `c` under a mode. -/
def Mode.variants (m : Mode) (c : Char) : List Char :=
  if !m.caseless then [c]
  else if m.ascii then [c, c.toLower, c.toUpper]
  else Text.caseVariants c

/-- The character that a class is asked about. -/
def Mode.fold (m : Mode) (c : Char) : Char :=
  if !m.caseless then c else if m.ascii then c.toLower else Text.toLowerChar c

/-- Membership of a character in the items of a set. -/
def inSet (m : Mode) (items : List SetItem) (c : Char) : Bool :=
  let variants := m.variants c
  items.any fun
    | .range first last => variants.any fun v => first ≤ v.toNat && v.toNat ≤ last
    | .named k negated => k.holds m.ascii (m.fold c) != negated

/-- Whether `c` stands for the character `d` of a group's text. -/
def Mode.same (m : Mode) (c d : Char) : Bool := m.fold c == m.fold d

/-- The place after a text that equals `text` under a mode. -/
def Place.skip? (m : Mode) (p : Place) : List Char → Option Place
  | [] => some p
  | c :: text =>
    match p.step? (m.same c) with
    | some q => Place.skip? m q text
    | none => none

def Anchor.holds (p : Place) : Anchor → Bool
  | .textStart => p.before.isEmpty
  | .lineStart => p.before.isEmpty || p.before.head? == some '\n'
  | .textEnd => p.after.isEmpty
  | .lastLineEnd => p.after.isEmpty || p.after == ['\n']
  | .lineEnd => p.after.isEmpty || p.after.head? == some '\n'
  | .wordEdge negated ascii =>
    let isWord (c : Option Char) := c.any (CharClass.word.holds ascii ·)
    !(p.before.isEmpty && p.after.isEmpty) &&
      ((isWord p.before.head? != isWord p.after.head?) != negated)

/-- What is tried from a place on: the place where it ends, if it succeeds. -/
abbrev Attempt := Place → Option Place

/-- A way to match: tries what follows after each of its own ways. -/
abbrev Matcher := Place → Attempt → Option Place

/-- Repetition that prefers more. `fuel` bounds the repetitions beyond the least number, `last` is
the position where the latest of them began. -/
def loopGreedy (body : Matcher) (most : Option Nat) :
    Nat → Nat → Option Nat → Matcher
  | 0, _, _, p, k => k p
  | fuel + 1, count, last, p, k =>
    if most.any (count ≥ ·) || last == some p.position then k p
    else
      match body p fun q => loopGreedy body most fuel (count + 1) (some p.position) q k with
      | some r => some r
      | none => k p

/-- Repetition that prefers less. -/
def loopLazy (body : Matcher) (most : Option Nat) :
    Nat → Nat → Option Nat → Matcher
  | 0, _, _, p, k => k p
  | fuel + 1, count, last, p, k =>
    match k p with
    | some r => some r
    | none =>
      if most.any (count ≥ ·) || last == some p.position then none
      else body p fun q => loopLazy body most fuel (count + 1) (some p.position) q k

/-- Repetition that keeps all it can take: each repetition is settled before the next. -/
def loopSettled (body : Matcher) (most : Option Nat) : Nat → Nat → Place → Place
  | 0, _, p => p
  | fuel + 1, count, p =>
    if most.any (count ≥ ·) then p
    else
      match body p some with
      | some q =>
        if q.position = p.position then q else loopSettled body most fuel (count + 1) q
      | none => p

/-- A fixed number of repetitions. -/
def repeatExactly (body : Matcher) : Nat → Matcher
  | 0, p, k => k p
  | n + 1, p, k => body p fun q => repeatExactly body n q k

/-- A fixed number of repetitions, each settled before the next. -/
def repeatSettled (body : Matcher) : Nat → Place → Option Place
  | 0, p => some p
  | n + 1, p => (body p some).bind (repeatSettled body n)

/-- Tries an expression at a place, and `k` after each of its ways to match. -/
def Node.run : Node → Matcher
  | .empty, p, k => k p
  | .char c, p, k => (p.step? (· == c)).bind k
  | .any, p, k => (p.step? fun _ => true).bind k
  | .notLineFeed, p, k => (p.step? (· != '\n')).bind k
  | .set m negated items, p, k => (p.step? fun c => inSet m items c != negated).bind k
  | .anchor a, p, k => if a.holds p then k p else none
  | .seq a b, p, k => a.run p fun q => b.run q k
  | .alt a b, p, k =>
    match a.run p k with
    | some r => some r
    | none => b.run p k
  | .group i a, p, k => a.run p fun q => k (q.capture i (p.taken q))
  | .reference m i, p, k => ((p.group? i).bind fun text => p.skip? m text).bind k
  | .condition i a b, p, k => if (p.group? i).isSome then a.run p k else b.run p k
  | .ahead negated a, p, k =>
    -- What was captured while looking ahead is kept, the place is not.
    match a.run p some with
    | some q => if negated then none else k { p with groups := q.groups }
    | none => if negated then k p else none
  | .behind negated w a, p, k =>
    match (p.back? w).bind fun q => a.run q some with
    | some q => if negated then none else k { p with groups := q.groups }
    | none => if negated then k p else none
  | .atomic a, p, k => (a.run p some).bind k
  | .loop .greedy least most a, p, k =>
    repeatExactly a.run least p fun q => loopGreedy a.run most (q.after.length + 2) least none q k
  | .loop .lazy least most a, p, k =>
    repeatExactly a.run least p fun q => loopLazy a.run most (q.after.length + 2) least none q k
  | .loop .possessive least most a, p, k =>
    (repeatSettled a.run least p).bind fun q =>
      k (loopSettled a.run most (q.after.length + 2) least q)

/-- The end of the preferred way to match a whole text. -/
def Node.fullMatch (e : Node) (text : List Char) : Option Place :=
  e.run (.start text) fun p => if p.after.isEmpty then some p else none

end Winnow.Regex
