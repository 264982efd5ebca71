import Winnow.Text.Character

/-!
# Reading integers

Integers in a base up to sixteen as people write them: white space around them, a sign, a mark of
the base, digits of any script, and single underscores between digits.
-/

namespace Winnow.Integer

/-- The most decimal digits that are read; bases that are powers of two have no limit. -/
def maxDigits : Nat := 4300

/-- The value of a digit in a base. -/
def digit? (base : Nat) (c : Char) : Option Nat :=
  let n := c.toNat
  let value :=
    if 97 ≤ n ∧ n ≤ 102 then some (n - 87)
    else if 65 ≤ n ∧ n ≤ 70 then some (n - 55)
    else Text.digitValue? c
  value.filter (· < base)

/-- The value of all digits behind `count` digits worth `value`, and their number. An underscore may
stand directly after a digit, and a digit has to follow it. -/
def readDigits (base value count : Nat) (afterDigit : Bool) : List Char → Option (Nat × Nat)
  | [] => if afterDigit then some (value, count) else none
  | c :: rest =>
    if c == '_' then if afterDigit then readDigits base value count false rest else none
    else match digit? base c with
      | some d => readDigits base (value * base + d) (count + 1) true rest
      | none => none

/-- The letter that marks a base after a zero. -/
def mark? : Nat → Option Char
  | 2 => some 'b'
  | 8 => some 'o'
  | 16 => some 'x'
  | _ => none

/-- Drops the mark of a base. An underscore may follow the mark. -/
def dropMark (base : Nat) (s : List Char) : List Char :=
  match mark? base, s with
  | some m, '0' :: c :: rest =>
    if c == m || c == m.toUpper then
      match rest with
      | '_' :: rest => rest
      | _ => rest
    else s
  | _, _ => s

/-- Why a text is no integer. -/
inductive Fault
  | malformed
  | tooManyDigits (count : Nat)
  deriving DecidableEq, Repr

/-- The integer that a text is. -/
def read (base : Nat) (s : List Char) : Except Fault Int :=
  let (negative, body) := match Text.stripNumber s with
    | '-' :: rest => (true, rest)
    | '+' :: rest => (false, rest)
    | rest => (false, rest)
  match readDigits base 0 0 false (dropMark base body) with
  | none => .error .malformed
  | some (value, count) =>
    if (mark? base).isNone && count > maxDigits then .error (.tooManyDigits count)
    else .ok (if negative then -(value : Int) else value)

end Winnow.Integer
