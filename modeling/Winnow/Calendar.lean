/-!
# Dates and moments

Days of the proleptic Gregorian calendar and moments of the day, with or without an offset from
universal time, and their two written forms: the standard one and the one of a constructor call.
-/

namespace Winnow

/-- A day. -/
structure Date where
  year : Nat
  month : Nat
  day : Nat
  deriving DecidableEq, Repr, Inhabited

/-- A moment of a day to the microsecond. The offset from universal time is in seconds; a moment
without one is local. -/
structure Moment where
  date : Date
  hour : Nat
  minute : Nat
  second : Nat
  microsecond : Nat
  offset : Option Int
  deriving DecidableEq, Repr, Inhabited

def isLeapYear (y : Nat) : Bool := y % 4 == 0 && (y % 100 != 0 || y % 400 == 0)

def daysInMonth (y m : Nat) : Nat :=
  if m == 2 then (if isLeapYear y then 29 else 28)
  else if m == 4 || m == 6 || m == 9 || m == 11 then 30
  else 31

/-- A decimal number of at least `width` digits. -/
def paddedNat (width n : Nat) : String :=
  let s := toString n
  "".pushn '0' (width - s.length) ++ s

namespace Date

def render (d : Date) : String :=
  paddedNat 4 d.year ++ "-" ++ paddedNat 2 d.month ++ "-" ++ paddedNat 2 d.day

/-- The written form of the call that makes the day. -/
def renderCall (d : Date) : String := s!"datetime.date({d.year}, {d.month}, {d.day})"

/-- Days since 1 March of the year 0, counted with March as the first month so that a leap day is
the last day of its year. -/
def dayNumber (d : Date) : Int :=
  let y : Int := if d.month ≤ 2 then (d.year : Int) - 1 else d.year
  let m : Int := if d.month ≤ 2 then (d.month : Int) + 9 else (d.month : Int) - 3
  y * 365 + y / 4 - y / 100 + y / 400 + (m * 153 + 2) / 5 + ((d.day : Int) - 1)

/-- The day with a given number. -/
def ofDayNumber (n : Int) : Date :=
  let era := n / 146097
  let doe := n - era * 146097
  let yoe := (doe - doe / 1460 + doe / 36524 - doe / 146096) / 365
  let doy := doe - (365 * yoe + yoe / 4 - yoe / 100)
  let mp := (5 * doy + 2) / 153
  let d := doy - (153 * mp + 2) / 5 + 1
  let m := if mp < 10 then mp + 3 else mp - 9
  let y := yoe + era * 400 + (if m ≤ 2 then 1 else 0)
  ⟨y.toNat, m.toNat, d.toNat⟩

end Date

namespace Moment

def renderOffset (o : Int) : String :=
  let n := o.natAbs
  (if o < 0 then "-" else "+") ++ paddedNat 2 (n / 3600) ++ ":" ++ paddedNat 2 (n / 60 % 60) ++
    if n % 60 = 0 then "" else ":" ++ paddedNat 2 (n % 60)

/-- The standard form with a separator between day and time. The fraction is written only when
there is one. -/
def renderWith (separator : String) (t : Moment) : String :=
  t.date.render ++ separator ++ paddedNat 2 t.hour ++ ":" ++ paddedNat 2 t.minute ++ ":" ++
    paddedNat 2 t.second ++
    (if t.microsecond = 0 then "" else "." ++ paddedNat 6 t.microsecond) ++
    (t.offset.map renderOffset).getD ""

/-- The standard form. -/
def render (t : Moment) : String := t.renderWith "T"

/-- The written form of the call that makes a span of seconds other than none. -/
def renderSpanCall (o : Int) : String :=
  let days := o / 86400
  let seconds := o - days * 86400
  let parts := (if days = 0 then [] else [s!"days={days}"]) ++
    (if seconds = 0 then [] else [s!"seconds={seconds}"])
  "datetime.timedelta(" ++ ", ".intercalate parts ++ ")"

def renderZoneCall (o : Int) : String :=
  if o = 0 then "datetime.timezone.utc" else "datetime.timezone(" ++ renderSpanCall o ++ ")"

/-- The written form of the call that makes the moment; zero seconds and microseconds are left out
from the end. -/
def renderCall (t : Moment) : String :=
  let fields := [t.date.year, t.date.month, t.date.day, t.hour, t.minute] ++
    (if t.microsecond ≠ 0 then [t.second, t.microsecond]
     else if t.second ≠ 0 then [t.second] else [])
  let zone := match t.offset with
    | none => []
    | some o => ["tzinfo=" ++ renderZoneCall o]
  "datetime.datetime(" ++ ", ".intercalate (fields.map toString ++ zone) ++ ")"

/-- Microseconds since the start of the calendar, as read on the moment's own clock. -/
def clock (t : Moment) : Int :=
  (((t.date.dayNumber * 24 + t.hour) * 60 + t.minute) * 60 + t.second) * 1000000 + t.microsecond

/-- Microseconds since the start of the calendar in universal time. -/
def instant (t : Moment) : Int := t.clock - t.offset.getD 0 * 1000000

/-- The moment that a local clock shows. -/
def ofClock (n : Int) (offset : Option Int) : Moment :=
  let micro := n % 1000000
  let secs := n / 1000000
  let rest := secs % 86400
  ⟨Date.ofDayNumber (secs / 86400), (rest / 3600).toNat, (rest / 60 % 60).toNat,
    (rest % 60).toNat, micro.toNat, offset⟩

/-- A part of a moment that is out of range. -/
inductive Part
  | year (n : Nat)
  | month
  | day
  | hour
  | minute
  | second
  | offset (seconds : Int)
  deriving DecidableEq, Repr

def Part.message : Part → String
  | .year n => s!"year {n} is out of range"
  | .month => "month must be in 1..12"
  | .day => "day is out of range for month"
  | .hour => "hour must be in 0..23"
  | .minute => "minute must be in 0..59"
  | .second => "second must be in 0..59"
  | .offset o => "offset must be a timedelta strictly between -timedelta(hours=24) and " ++
      "timedelta(hours=24), not " ++ renderSpanCall o ++ "."

/-- The first part of a day that is out of range. -/
def badDatePart? (d : Date) : Option Part :=
  if d.year = 0 ∨ 9999 < d.year then some (.year d.year)
  else if d.month = 0 ∨ 12 < d.month then some .month
  else if d.day = 0 ∨ daysInMonth d.year d.month < d.day then some .day
  else none

/-- The first part of a moment that is out of range; the offset is looked at first. -/
def badPart? (t : Moment) : Option Part :=
  let badOffset := t.offset.bind fun o =>
    if -86400 < o ∧ o < 86400 then none else some (Part.offset o)
  badOffset <|> badDatePart? t.date <|>
    if 23 < t.hour then some .hour
    else if 59 < t.minute then some .minute
    else if 59 < t.second then some .second
    else none

/-- Moments are equal when they name the same instant; a local moment equals only local ones. -/
def eq (s t : Moment) : Bool :=
  s.offset.isSome == t.offset.isSome && s.instant == t.instant

end Moment

end Winnow
