import Winnow.Calendar
import Winnow.Decimal.Power

/-!
# Timestamps

Days and moments as documents write them: the time may stand behind a letter or blanks, its fraction
may have any number of digits, and the offset from universal time may leave out its minutes.
-/

namespace Winnow.Yaml

/-- The parts of a time of day as they are written. -/
structure TimeParts where
  hour : Nat
  minute : Nat
  second : Nat
  fraction : List Char
  /-- The offset in seconds. -/
  offset : Option Int
  deriving Repr

/-- The parts of a timestamp as they are written, whether or not there is such a day. -/
structure Timestamp where
  date : Date
  time : Option TimeParts
  deriving Repr

namespace Timestamp

def natOf (ds : List Char) : Nat := ds.foldl (fun n c => n * 10 + (c.toNat - 48)) 0

/-- Reads digits in number between `least` and `most`. -/
def digits? (least most : Nat) (s : List Char) : Option (Nat × List Char) :=
  let ds := s.takeWhile Char.isDigit
  if least ≤ ds.length ∧ ds.length ≤ most then some (natOf ds, s.drop ds.length) else none

def char? (c : Char) : List Char → Option (List Char)
  | [] => none
  | d :: s => if c == d then some s else none

def skipBlanks (s : List Char) : List Char := s.dropWhile fun c => c == ' ' || c == '\t'

/-- Reads what is left behind the fraction: nothing, or an offset behind blanks. -/
def offset? (s : List Char) : Option (Option Int) :=
  if s.isEmpty then some none
  else match skipBlanks s with
    | ['Z'] => some (some 0)
    | sign :: rest =>
      if sign == '-' || sign == '+' then do
        let (hours, rest) ← digits? 1 2 rest
        let minutes ← if rest.isEmpty then some 0 else do
          let (minutes, rest) ← digits? 2 2 (← char? ':' rest)
          if rest.isEmpty then some minutes else none
        let seconds : Int := hours * 3600 + minutes * 60
        return some (if sign == '-' then -seconds else seconds)
      else none
    | [] => none

/-- Reads a time of day. -/
def time? (s : List Char) : Option TimeParts := do
  let (hour, s) ← digits? 1 2 s
  let (minute, s) ← digits? 2 2 (← char? ':' s)
  let (second, s) ← digits? 2 2 (← char? ':' s)
  let (fraction, s) := match s with
    | '.' :: s => (s.takeWhile Char.isDigit, s.dropWhile Char.isDigit)
    | s => ([], s)
  return ⟨hour, minute, second, fraction, ← offset? s⟩

/-- Reads what is left behind the day: nothing, or a time behind a letter or blanks. -/
def timeBehind? : List Char → Option (Option TimeParts)
  | [] => some none
  | c :: s =>
    if c == 'T' || c == 't' then (time? s).map some
    else if c == ' ' || c == '\t' then (time? (skipBlanks s)).map some
    else none

def read? (s : List Char) : Option Timestamp := do
  let (year, s) ← digits? 4 4 s
  let (month, s) ← digits? 1 2 (← char? '-' s)
  let (day, s) ← digits? 1 2 (← char? '-' s)
  return ⟨⟨year, month, day⟩, ← timeBehind? s⟩

/-- A plain scalar is a timestamp if it has a time, or else a month and a day of two digits. -/
def isPlainForm (s : List Char) : Bool :=
  match read? s with
  | some t => t.time.isSome || s.length == 10
  | none => false

/-- The microseconds of a fraction; further digits are dropped. -/
def microseconds (fraction : List Char) : Nat :=
  let ds := fraction.take 6
  natOf ds * tenTo (6 - ds.length)

/-- The moment of a day and a time of day. -/
def moment (d : Date) (t : TimeParts) : Moment :=
  ⟨d, t.hour, t.minute, t.second, microseconds t.fraction, t.offset⟩

end Timestamp

end Winnow.Yaml
