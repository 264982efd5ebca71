/-!
# Base 64

Lenient decoding: characters outside the alphabet are passed over, and padding that completes a
group of four ends the data.
-/

namespace Winnow.Text.Base64

/-- The six bits that a character stands for. -/
def digit? (c : Char) : Option Nat :=
  if 'A' ≤ c ∧ c ≤ 'Z' then some (c.toNat - 65)
  else if 'a' ≤ c ∧ c ≤ 'z' then some (c.toNat - 71)
  else if '0' ≤ c ∧ c ≤ '9' then some (c.toNat + 4)
  else if c = '+' then some 62
  else if c = '/' then some 63
  else none

/-- Decodes behind the reversed bytes `done`. In the current group `position` characters were read,
of which the bits `left` are not yet used, and `pads` marks of padding. -/
def decodeAux (position left pads : Nat) (done : List UInt8) : List Char → Option (List UInt8)
  | [] => if position = 0 then some done.reverse else none
  | c :: rest =>
    if c = '=' then
      if position < 2 then decodeAux position left pads done rest
      else if position + pads + 1 ≥ 4 then some done.reverse
      else decodeAux position left (pads + 1) done rest
    else match digit? c with
      | none => decodeAux position left pads done rest
      | some d =>
        match position with
        | 0 => decodeAux 1 d 0 done rest
        | 1 => decodeAux 2 (d % 16) 0 (UInt8.ofNat (left * 4 + d / 16) :: done) rest
        | 2 => decodeAux 3 (d % 4) 0 (UInt8.ofNat (left * 16 + d / 4) :: done) rest
        | _ => decodeAux 0 0 0 (UInt8.ofNat (left * 64 + d) :: done) rest

/-- The bytes of a text in base 64, unless its last group is incomplete. -/
def decode? (s : List Char) : Option (List UInt8) := decodeAux 0 0 0 [] s

end Winnow.Text.Base64
