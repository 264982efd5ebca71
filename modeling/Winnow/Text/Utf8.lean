import Winnow.Text.Quoted

/-!
# UTF-8

Decoding of byte strings. The first byte that cannot continue a character is a fault, reported with
the positions of the bytes that were taken for the character so far.
-/

namespace Winnow.Text.Utf8

/-- Why bytes are not UTF-8. -/
inductive Reason
  | start
  | continuation
  | truncated
  deriving DecidableEq, Repr

/-- Bytes that begin no character: the position of the first, the byte itself and how many of them
there are. -/
structure Fault where
  position : Nat
  byte : UInt8
  count : Nat
  reason : Reason
  deriving DecidableEq, Repr

def Reason.message : Reason → String
  | .start => "invalid start byte"
  | .continuation => "invalid continuation byte"
  | .truncated => "unexpected end of data"

/-- The wording of a fault. -/
def Fault.message (f : Fault) : String :=
  let place :=
    if f.count == 1 then
      s!"byte 0x{String.ofList (hexDigits 2 f.byte.toNat)} in position {f.position}"
    else s!"bytes in position {f.position}-{f.position + f.count - 1}"
  "'utf-8' codec can't decode " ++ place ++ ": " ++ f.reason.message

/-- What a first byte announces: the bytes that follow it, the range of the first of them, and the
value bits of the byte itself. -/
def lead? (b : UInt8) : Option (Nat × UInt8 × UInt8 × Nat) :=
  let n := b.toNat
  if n < 0x80 then some (0, 0x80, 0xBF, n)
  else if n < 0xC2 then none
  else if n < 0xE0 then some (1, 0x80, 0xBF, n - 0xC0)
  else if n == 0xE0 then some (2, 0xA0, 0xBF, 0)
  else if n == 0xED then some (2, 0x80, 0x9F, 0xD)
  else if n < 0xF0 then some (2, 0x80, 0xBF, n - 0xE0)
  else if n == 0xF0 then some (3, 0x90, 0xBF, 0)
  else if n < 0xF4 then some (3, 0x80, 0xBF, n - 0xF0)
  else if n == 0xF4 then some (3, 0x80, 0x8F, 4)
  else none

/-- Reads `owed` continuation bytes, the next of them between `lo` and `hi`, into `value`. A failure
gives the number of bytes that were good. -/
def tail (lo hi : UInt8) (value taken : Nat) :
    Nat → List UInt8 → Except (Nat × Reason) Nat
  | 0, _ => .ok value
  | _ + 1, [] => .error (taken, .truncated)
  | owed + 1, b :: rest =>
    if lo ≤ b && b ≤ hi then tail 0x80 0xBF (value * 64 + (b.toNat - 0x80)) (taken + 1) owed rest
    else .error (taken, .continuation)

/-- Decodes the bytes from `position` on behind the reversed text `done`. The first `skip` bytes
belong to the character before them. -/
def decodeAux (position skip : Nat) (done : List Char) : List UInt8 → Except Fault (List Char)
  | [] => .ok done.reverse
  | b :: rest =>
    match skip with
    | skip + 1 => decodeAux (position + 1) skip done rest
    | 0 =>
      match lead? b with
      | none => .error ⟨position, b, 1, .start⟩
      | some (owed, lo, hi, value) =>
        match tail lo hi value 1 owed rest with
        | .error (taken, reason) => .error ⟨position, b, taken, reason⟩
        | .ok value => decodeAux (position + 1) owed (Char.ofNat value :: done) rest

/-- The text that a byte string encodes. -/
def decode (bytes : List UInt8) : Except Fault (List Char) := decodeAux 0 0 [] bytes

/-- The bytes of a text. -/
def encode (s : String) : List UInt8 := s.toUTF8.toList

end Winnow.Text.Utf8
