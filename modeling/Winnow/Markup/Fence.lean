/-!
# Blocks between fences

An item may open with a block of metadata between two fence lines. A fence line is three hyphens,
blanks and an optional carriage return. The block is found in the bytes of an item, of which only
the head may be known.
-/

namespace Winnow.Markup

abbrev Bytes := List UInt8

namespace Fence

def hyphen : UInt8 := 0x2D

def lineFeed : UInt8 := 0x0A

def carriageReturn : UInt8 := 0x0D

def isBlank (b : UInt8) : Bool := b == 0x20 || b == 0x09

/-- The hyphens of a fence. -/
def dashes : Bytes := [hyphen, hyphen, hyphen]

/-- Whether the bytes behind the hyphens are blanks and an optional carriage return. -/
def isTail (bs : Bytes) : Bool :=
  let rest := bs.dropWhile isBlank
  rest == [] || rest == [carriageReturn]

/-- Whether a line, without the line feed that ends it, is a fence. -/
def isFence (line : Bytes) : Bool := line.take 3 == dashes && isTail (line.drop 3)

/-- The bytes before the first line feed. -/
def line (bs : Bytes) : Bytes := bs.takeWhile (· != lineFeed)

/-- The bytes behind the first line feed. -/
def afterLine (bs : Bytes) : Bytes := (bs.dropWhile (· != lineFeed)).drop 1

theorem afterLine_length_lt {bs : Bytes} (h : bs ≠ []) : (afterLine bs).length < bs.length := by
  have hpos : 0 < bs.length := List.length_pos_iff.2 h
  have hle : (bs.dropWhile (· != lineFeed)).length ≤ bs.length :=
    (List.dropWhile_suffix _).length_le
  rw [afterLine, List.length_drop]
  omega

/-- The place of the first fence line in `bs`, which begin a line at `position`: where it begins and
where it ends. -/
def find? (position : Nat) (bs : Bytes) : Option (Nat × Nat) :=
  if h : bs = [] then none
  else
    let size := (line bs).length
    if isFence (line bs) then some (position, position + size)
    else find? (position + size + 1) (afterLine bs)
termination_by bs.length
decreasing_by exact afterLine_length_lt h

end Fence

/-- What is known about the block of an item. -/
inductive Block
  /-- The item opens with no block. -/
  | absent
  /-- The bytes known so far do not decide. -/
  | pending
  /-- The inner bytes are those from `start` to `stop`; the body begins at `body`. -/
  | closed (start stop body : Nat)
  deriving DecidableEq, Repr

namespace Block

/-- Whether the hyphens of a fence begin `bs`, or `bs` is too short to tell. -/
def mayOpen (bs : Bytes) : Bool := bs.take 3 == Fence.dashes.take bs.length

/-- Looks for a block in the head of an item; `isWhole` says that nothing follows. At the end of an
item, a block that was opened and never closed is still pending. -/
def scan (bs : Bytes) (isWhole : Bool) : Block :=
  if !mayOpen bs then .absent
  else if !bs.contains Fence.lineFeed then if isWhole then .absent else .pending
  else if !Fence.isFence (Fence.line bs) then .absent
  else
    let start := (Fence.line bs).length + 1
    match Fence.find? start (Fence.afterLine bs) with
    | none => .pending
    | some (stop, last) =>
      -- The last line of a head may go on behind it, so it is no fence yet.
      if last == bs.length then if isWhole then .closed start stop last else .pending
      else .closed start stop (last + 1)

/-- The name of a state. -/
def state : Block → String
  | .absent => "absent"
  | .pending => "pending"
  | .closed .. => "closed"

end Block

end Winnow.Markup
