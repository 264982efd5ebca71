import Winnow.Decimal.Binary64

/-!
# Shortest decimals

The fewest decimal digits that read back as a given binary number, and of those the nearest. A grid
of decimals with `n` digits meets the interval of reals that round to the number only if one of the
number's two neighbours on that grid does, so these two are all that is tried.
-/

namespace Winnow

/-- A decimal: `digits * 10 ^ exponent`. -/
structure Decimal where
  digits : Nat
  exponent : Int
  deriving DecidableEq, Repr

namespace Binary64

/-- `a / b ≤ c / d` for positive denominators. -/
def ratioLe (a b c d : Nat) : Bool := a * d ≤ c * b

/-- The largest `k` with `10 ^ k ≤ m * 2 ^ e`, for a positive `m`. -/
def decimalMagnitude (m : Nat) (e : Int) : Int :=
  let log := (Nat.log2 m : Int) + e
  let guess := log * 30103 / 100000
  let next := guess + 1
  let (num, den) := scale m 1 (-e)
  let reaches :=
    if next ≥ 0 then ratioLe (tenTo next.toNat) 1 num den
    else ratioLe 1 (tenTo (-next).toNat) num den
  if reaches then next else guess

/-- The interval of the reals that round to `m * 2 ^ e`, with the number itself in the middle, over
the common unit `2 ^ (e - 2)`: below a power of two the numbers lie twice as close. -/
def roundingInterval (m : Nat) (e : Int) : Nat × Nat × Nat :=
  let low := if m = twoTo 52 ∧ e > -1074 then 4 * m - 1 else 4 * m - 2
  (low, 4 * m, 4 * m + 2)

/-- The decimal with digits at `10 ^ p` and above that is nearest to the number, if one of the two
neighbours on that grid reads back. -/
def nearestOnGrid? (m : Nat) (e p : Int) : Option Nat :=
  let (low, mid, high) := roundingInterval m e
  -- the unit of the interval over the unit of the grid
  let (n1, d1) := scale 1 1 (2 - e)
  let (num, den) :=
    if p ≥ 0 then (n1, d1 * tenTo p.toNat) else (n1 * tenTo (-p).toNat, d1)
  let inside (k : Nat) : Bool :=
    if m % 2 = 0 then low * num ≤ k * den && k * den ≤ high * num
    else low * num < k * den && k * den < high * num
  let below := mid * num / den
  let above := below + 1
  match inside below, inside above with
  | true, true =>
    let r := mid * num % den
    if 2 * r < den then some below
    else if 2 * r > den then some above
    else some (below + below % 2)
  | true, false => some below
  | false, true => some above
  | false, false => none

/-- Tries ever finer grids, `left` of them. -/
def shortestFrom (m : Nat) (e p : Int) : Nat → Decimal
  | 0 => ⟨m, e⟩
  | left + 1 =>
    match nearestOnGrid? m e p with
    | some k => ⟨k, p⟩
    | none => shortestFrom m e (p - 1) left

/-- Removes trailing zeros from the digits, at most `left` of them. -/
def trim (d : Decimal) : Nat → Decimal
  | 0 => d
  | left + 1 =>
    if d.digits % 10 = 0 ∧ d.digits ≠ 0 then
      trim ⟨d.digits / 10, d.exponent + 1⟩ left
    else d

/-- The shortest decimal that reads back as `m * 2 ^ e`; seventeen digits always suffice. -/
def shortest (m : Nat) (e : Int) : Decimal :=
  if m = 0 then ⟨0, 0⟩ else trim (shortestFrom m e (decimalMagnitude m e) 18) 20

/-- How the digits of a number are laid out. -/
structure Layout where
  /-- The least and greatest exponents of the leading digit that are written without exponent. -/
  least : Int
  greatest : Int
  /-- Whether a whole number without exponent ends in a point and a zero. -/
  wholePoint : Bool
  /-- The least number of digits of an exponent. -/
  exponentDigits : Nat
  /-- Whether a positive exponent has a sign. -/
  plus : Bool
  nan : String
  infinite : String

def padLeft (width : Nat) (s : List Char) : List Char :=
  List.replicate (width - s.length) '0' ++ s

/-- The text of a number under a layout. A point has a digit on either side. -/
def Layout.render (style : Layout) (x : Binary64) : String :=
  let sign (negative : Bool) := if negative then "-" else ""
  match x.view with
  | .nan => style.nan
  | .infinite negative => sign negative ++ style.infinite
  | .finite negative m e =>
    let d := shortest m e
    let ds := (toString d.digits).toList
    -- the power of ten of the first digit
    let lead : Int := ds.length - 1 + d.exponent
    let body :=
      if style.least ≤ lead ∧ lead ≤ style.greatest then
        if lead < 0 then "0." ++ String.ofList (List.replicate (-lead - 1).toNat '0' ++ ds)
        else
          let whole := (lead + 1).toNat
          let left := ds.take whole ++ List.replicate (whole - ds.length) '0'
          let right := ds.drop whole
          if !right.isEmpty then String.ofList (left ++ '.' :: right)
          else String.ofList (left ++ if style.wholePoint then ['.', '0'] else [])
      else
        let fraction := if ds.length > 1 then '.' :: ds.tail else []
        let mark := if lead < 0 then "e-" else if style.plus then "e+" else "e"
        let power := padLeft style.exponentDigits (toString lead.natAbs).toList
        String.ofList (ds.take 1 ++ fraction) ++ mark ++ String.ofList power
    sign negative ++ body

/-- Numbers in messages and texts: positional between 10^-4 and 10^16. -/
def plain : Layout := ⟨-4, 15, true, 2, true, "nan", "inf"⟩

end Binary64

end Winnow
