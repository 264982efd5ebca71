import Winnow.Markup.Fence

/-!
# Reading the head of an item

Only as much of an item is read as shows its block. A first read has a fixed size; as long as the
block does not close, further reads follow, each twice as large as the one before, up to a ceiling.
-/

namespace Winnow.Markup

/-- An item of which the head has been read. -/
structure Head where
  /-- What has been read. -/
  bytes : Bytes
  /-- What is left to read. -/
  rest : Bytes
  /-- A read gave fewer bytes than it asked for. -/
  isWhole : Bool
  /-- What each read asked for, the last one first. -/
  reads : List Nat
  deriving DecidableEq, Repr

namespace Head

/-- An item before the first read. -/
def ofContent (content : Bytes) : Head := ⟨[], content, false, []⟩

/-- Reads up to `n` more bytes. -/
def read (h : Head) (n : Nat) : Head :=
  let more := h.rest.take n
  ⟨h.bytes ++ more, h.rest.drop n, more.length < n, n :: h.reads⟩

/-- How much there is to find out: the bytes left, and whether they are all. -/
def weight (h : Head) : Nat := h.rest.length + if h.isWhole then 0 else 1

theorem weight_read_lt {h : Head} {n : Nat} (hn : n ≠ 0) (hw : h.isWhole = false) :
    (h.read n).weight < h.weight := by
  simp only [weight, read, List.length_drop, List.length_take, hw, decide_eq_true_eq]
  split <;> simp only [Bool.false_eq_true, ↓reduceIte] <;> omega

/-- Reads on until the block is decided or the item ends. A window of no bytes can decide nothing
and ends the search. -/
def search (ceiling window : Nat) (h : Head) : Block × Head :=
  match Block.scan h.bytes h.isWhole with
  | .pending =>
    let window := min (window * 2) ceiling
    if _h : window = 0 ∨ h.isWhole = true then (.pending, h)
    else search ceiling window (h.read window)
  | b => (b, h)
termination_by h.weight
decreasing_by
  exact weight_read_lt (fun e => _h (.inl e)) (by simpa using fun e => _h (.inr e))

/-- Finds the block of an item and the head that had to be read for it. -/
def find (budget ceiling : Nat) (content : Bytes) : Block × Head :=
  search ceiling budget ((ofContent content).read budget)

end Head

/-- The bytes of a first read. -/
def defaultBudget : Nat := 4096

/-- The most bytes that a later read asks for. -/
def defaultCeiling : Nat := 1024 * 1024

end Winnow.Markup
