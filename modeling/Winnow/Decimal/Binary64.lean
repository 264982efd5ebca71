import Winnow.Decimal.Power

/-!
# Binary floating-point numbers

A double-precision number is its bit pattern: a sign, eleven bits of exponent, fifty-two bits of
fraction. The module reads the exact value off the bits and rounds exact ratios and decimals to the
nearest pattern, a tie to the even one.
-/

namespace Winnow

/-- A double-precision number, given by its bits. Two zeros and many not-a-numbers are distinct as
patterns; `Binary64.eq` compares values. -/
structure Binary64 where
  bits : UInt64
  deriving DecidableEq, Repr, Inhabited

namespace Binary64

/-- The value of a bit pattern: a finite number is `mantissa * 2 ^ exponent` under a sign. -/
inductive View
  | nan
  | infinite (negative : Bool)
  | finite (negative : Bool) (mantissa : Nat) (exponent : Int)
  deriving DecidableEq, Repr

def negative (x : Binary64) : Bool := x.bits.toNat / twoTo 63 == 1

def exponentField (x : Binary64) : Nat := x.bits.toNat / twoTo 52 % twoTo 11

def fraction (x : Binary64) : Nat := x.bits.toNat % twoTo 52

/-- The value of a bit pattern. The smallest exponent field holds zero and the numbers too small
for a leading one, the largest holds infinity and not-a-number. -/
def view (x : Binary64) : View :=
  if x.exponentField = 2047 then
    if x.fraction = 0 then .infinite x.negative else .nan
  else if x.exponentField = 0 then .finite x.negative x.fraction (-1074)
  else .finite x.negative (twoTo 52 + x.fraction) ((x.exponentField : Int) - 1075)

/-- A pattern from a sign and the other sixty-three bits. -/
def ofMagnitude (negative : Bool) (magnitude : Nat) : Binary64 :=
  ⟨UInt64.ofNat ((if negative then twoTo 63 else 0) + magnitude)⟩

def infinity (negative : Bool) : Binary64 := ofMagnitude negative (2047 * twoTo 52)

def nan : Binary64 := ofMagnitude false (2047 * twoTo 52 + twoTo 51)

def zero (negative : Bool) : Binary64 := ofMagnitude negative 0

/-- The quotient rounded to the nearest natural number, a tie to the even one. -/
def roundDiv (num den : Nat) : Nat :=
  let q := num / den
  let r := num % den
  if 2 * r < den then q else if 2 * r > den then q + 1 else q + q % 2

/-- `num / den / 2 ^ e` as a fraction. -/
def scale (num den : Nat) (e : Int) : Nat × Nat :=
  if e ≥ 0 then (num, den * twoTo e.toNat) else (num * twoTo (-e).toNat, den)

/-- The pattern nearest to `num / den`, for a positive `den`. A mantissa that rounds up to a power
of two carries into the exponent field, which is the right neighbour. -/
def ofRatio (negative : Bool) (num den : Nat) : Binary64 :=
  if num = 0 then zero negative else
  let log : Int := (Nat.log2 num : Int) - Nat.log2 den
  let low := max (-1074) (log - 53)
  let (n, d) := scale num den low
  let e := if n / d ≥ twoTo 53 then low + 1 else low
  let (n, d) := scale num den e
  let mantissa := roundDiv n d
  if mantissa < twoTo 52 then ofMagnitude negative mantissa
  else
    let magnitude := (e + 1075).toNat * twoTo 52 + (mantissa - twoTo 52)
    if magnitude ≥ 2047 * twoTo 52 then infinity negative else ofMagnitude negative magnitude

/-- The pattern nearest to `digits * 10 ^ exponent`. Exponents far outside the range are settled
without computing the power. -/
def ofDecimal (negative : Bool) (digits : Nat) (exponent : Int) : Binary64 :=
  if digits = 0 then zero negative else
  let size : Int := Nat.log2 digits / 3 + 1
  if exponent > 400 then infinity negative
  else if exponent + size < -400 then zero negative
  else if exponent ≥ 0 then ofRatio negative (digits * tenTo exponent.toNat) 1
  else ofRatio negative digits (tenTo (-exponent).toNat)

/-- The pattern nearest to an integer. -/
def ofInt (i : Int) : Binary64 := ofRatio (i < 0) i.natAbs 1

def isNaN (x : Binary64) : Bool := x.view == .nan

def isFinite (x : Binary64) : Bool :=
  match x.view with
  | .finite .. => true
  | _ => false

/-- A signed mantissa and an exponent of two, for a finite number. -/
def dyadic? (x : Binary64) : Option (Int × Int) :=
  match x.view with
  | .finite negative m e => some (if negative then -m else m, e)
  | _ => none

/-- The integer part of a finite number. -/
def truncate? (x : Binary64) : Option Int :=
  x.dyadic?.map fun (m, e) =>
    if e ≥ 0 then m * twoTo e.toNat else m.tdiv (twoTo (-e).toNat)

/-- The sign of the difference of two binary numbers `m * 2 ^ e`. -/
def compareExact (a b : Int × Int) : Ordering :=
  let e := min a.2 b.2
  compare (a.1 * twoTo (a.2 - e).toNat) (b.1 * twoTo (b.2 - e).toNat)

/-- The order of two numbers by value; no order when one of them is not-a-number. -/
def compare? (x y : Binary64) : Option Ordering :=
  match x.view, y.view with
  | .nan, _ => none
  | _, .nan => none
  | .infinite a, .infinite b => some (compare (!a).toNat (!b).toNat)
  | .infinite a, .finite .. => some (if a then .lt else .gt)
  | .finite .., .infinite b => some (if b then .gt else .lt)
  | .finite a m e, .finite b n f =>
    some (compareExact (if a then -m else m, e) (if b then -n else n, f))

/-- Equality of values: the two zeros are equal, not-a-number equals nothing. -/
def eq (x y : Binary64) : Bool := x.compare? y == some .eq

/-- The order of an integer and a number by their exact values. -/
def compareInt? (i : Int) (x : Binary64) : Option Ordering :=
  match x.view with
  | .nan => none
  | .infinite a => some (if a then .gt else .lt)
  | .finite a m e => some (compareExact (i, 0) (if a then -m else m, e))

/-- Equality of an integer and a number by their exact values. -/
def eqInt (i : Int) (x : Binary64) : Bool := compareInt? i x == some .eq

def neg (x : Binary64) : Binary64 :=
  ⟨x.bits ^^^ 0x8000000000000000⟩

/-- The rounded sum of two finite numbers; a number that is not finite is passed on. -/
def add (x y : Binary64) : Binary64 :=
  match x.dyadic?, y.dyadic? with
  | some (m, e), some (n, f) =>
    let low := min e f
    let sum := m * twoTo (e - low).toNat + n * twoTo (f - low).toNat
    if sum = 0 then zero (x.negative && y.negative) else
    let (num, den) := scale sum.natAbs 1 (-low)
    ofRatio (sum < 0) num den
  | none, _ => x
  | _, none => y

/-- The rounded product of two finite numbers; a number that is not finite is passed on. -/
def mul (x y : Binary64) : Binary64 :=
  match x.dyadic?, y.dyadic? with
  | some (m, e), some (n, f) =>
    let (num, den) := scale (m.natAbs * n.natAbs) 1 (-(e + f))
    ofRatio (x.negative != y.negative) num den
  | none, _ => x
  | _, none => y

end Binary64

end Winnow
