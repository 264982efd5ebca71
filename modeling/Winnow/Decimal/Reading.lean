import Winnow.Decimal.Binary64
import Winnow.Text.Character

/-!
# Reading decimals

The binary number nearest to a decimal in digits, with an optional point and exponent.
-/

namespace Winnow.Binary64

/-- The value of decimal digits. -/
def natOfDigits (ds : List Char) : Nat :=
  ds.foldl (fun acc c => acc * 10 + (c.toNat - 48)) 0

/-- A sign, if there is one, and what follows it. -/
def splitSign : List Char → Bool × List Char
  | '-' :: rest => (true, rest)
  | '+' :: rest => (false, rest)
  | rest => (false, rest)

/-- The exponent after the digits: nothing, or a mark, a sign and digits. -/
def readExponent? : List Char → Option Int
  | [] => some 0
  | c :: rest =>
    if c = 'e' || c = 'E' then
      let (negative, ds) := splitSign rest
      if ds.isEmpty || !ds.all Char.isDigit then none
      else some (if negative then -(natOfDigits ds : Int) else natOfDigits ds)
    else none

/-- Reads a number with at least one digit before the exponent. -/
def ofText? (s : List Char) : Option Binary64 :=
  let (negative, body) := splitSign s
  let whole := body.takeWhile Char.isDigit
  let rest := body.dropWhile Char.isDigit
  let (fraction, rest) := match rest with
    | '.' :: more => (more.takeWhile Char.isDigit, more.dropWhile Char.isDigit)
    | _ => ([], rest)
  if whole.isEmpty && fraction.isEmpty then none
  else (readExponent? rest).map fun e =>
    ofDecimal negative (natOfDigits (whole ++ fraction)) (e - fraction.length)

/-- Digits of any script as ASCII digits. -/
def plainDigits (s : List Char) : List Char :=
  s.map fun c => match Text.digitValue? c with
    | some d => Char.ofNat (48 + d)
    | none => c

/-- Reads a number with white space around it; infinity and not-a-number have names. -/
def ofLooseText? (s : List Char) : Option Binary64 :=
  let s := plainDigits (Text.stripNumber s)
  let (negative, body) := splitSign s
  let name := String.ofList (Text.lower body)
  if name == "inf" || name == "infinity" then some (infinity negative)
  else if name == "nan" then some nan
  else ofText? s

end Winnow.Binary64
