/-!
# Regular expressions

The expressions that constrain a parameter: characters and sets, anchors, numbered groups and
references to them, conditions on groups, lookaround, and greedy, lazy and possessive repetition.
-/

namespace Winnow.Regex

/-- A class of characters with a name of its own. -/
inductive CharClass
  | digit
  | space
  | word
  deriving DecidableEq, Repr

/-- How characters are compared and classified. -/
structure Mode where
  caseless : Bool
  /-- Classes and case are those of ASCII alone. -/
  ascii : Bool
  deriving DecidableEq, Repr

/-- A member of a set. Code points are numbers because a set may name code points that are no
characters. -/
inductive SetItem
  | range (first last : Nat)
  | named (k : CharClass) (negated : Bool)
  deriving DecidableEq, Repr

/-- A condition on a place in the text. -/
inductive Anchor
  | textStart
  | lineStart
  | textEnd
  /-- The end, or just before a line feed that ends the text. -/
  | lastLineEnd
  | lineEnd
  | wordEdge (negated ascii : Bool)
  deriving DecidableEq, Repr

/-- Which number of repetitions is preferred, and whether it may be given up again. -/
inductive Greed
  | greedy
  | lazy
  | possessive
  deriving DecidableEq, Repr

/-- An expression. -/
inductive Node
  | empty
  | char (c : Char)
  | any
  | notLineFeed
  | set (mode : Mode) (negated : Bool) (items : List SetItem)
  | anchor (a : Anchor)
  | seq (first second : Node)
  | alt (left right : Node)
  | group (index : Nat) (body : Node)
  | reference (mode : Mode) (index : Nat)
  | condition (index : Nat) (yes no : Node)
  | ahead (negated : Bool) (body : Node)
  | behind (negated : Bool) (width : Nat) (body : Node)
  | atomic (body : Node)
  | loop (greed : Greed) (least : Nat) (most : Option Nat) (body : Node)
  deriving DecidableEq, Repr, Inhabited

/-- The fewest and the most characters an expression can take; no bound on the most is `none`. -/
structure Width where
  least : Nat
  most : Option Nat
  deriving DecidableEq, Repr

namespace Width

def exactly (n : Nat) : Width := ⟨n, some n⟩

def add (a b : Width) : Width :=
  ⟨a.least + b.least, match a.most, b.most with
    | some m, some n => some (m + n)
    | _, _ => none⟩

def join (a b : Width) : Width :=
  ⟨min a.least b.least, match a.most, b.most with
    | some m, some n => some (max m n)
    | _, _ => none⟩

def times (a : Width) (least : Nat) (most : Option Nat) : Width :=
  ⟨a.least * least, match a.most, most with
    | some m, some n => some (m * n)
    | some 0, none => some 0
    | none, some 0 => some 0
    | _, _ => none⟩

/-- The width itself, if there is only one. -/
def fixed? (a : Width) : Option Nat := if a.most = some a.least then some a.least else none

end Width

/-- The width of an expression, given the widths of the groups that it refers to. -/
def Node.width (groups : Nat → Width) : Node → Width
  | .empty => .exactly 0
  | .char _ => .exactly 1
  | .any => .exactly 1
  | .notLineFeed => .exactly 1
  | .set .. => .exactly 1
  | .anchor _ => .exactly 0
  | .seq a b => (a.width groups).add (b.width groups)
  | .alt a b => (a.width groups).join (b.width groups)
  | .group _ a => a.width groups
  | .reference _ i => groups i
  | .condition _ a b => (a.width groups).join (b.width groups)
  | .ahead .. => .exactly 0
  | .behind .. => .exactly 0
  | .atomic a => a.width groups
  | .loop _ least most a => (a.width groups).times least most

/-- Whether something is repeated in an expression. -/
def Node.repeats : Node → Bool
  | .seq a b => a.repeats || b.repeats
  | .alt a b => a.repeats || b.repeats
  | .group _ a => a.repeats
  | .condition _ a b => a.repeats || b.repeats
  | .ahead _ a => a.repeats
  | .behind _ _ a => a.repeats
  | .atomic a => a.repeats
  | .loop .. => true
  | _ => false

end Winnow.Regex
