/-
Days and moments of the calendar. The clock of a moment may say how far
it is ahead of universal time; two moments with such clocks are in the
order of their instants, and two without in the order of their readings.
-/

namespace Unformat

/-- The reading of a clock, and the minutes that it is ahead of
universal time, if they are known. -/
structure Clock where
  hour : Nat
  minute : Nat
  second : Nat
  micro : Nat
  ahead : Option Int
deriving DecidableEq

/-- A day of the calendar, or a moment of that day. -/
structure Timestamp where
  year : Nat
  month : Nat
  day : Nat
  clock : Option Clock
deriving DecidableEq

namespace Clock

/-- How many minutes a day has. -/
def minutesPerDay : Nat := 1440

/-- Whether there is such a reading, and a clock so far ahead. -/
def isValid (c : Clock) : Bool :=
  c.hour < 24 && c.minute < 60 && c.second < 60 && c.micro < 1000000
    && c.ahead.all fun a => a.natAbs < minutesPerDay

/-- The time since midnight, in microseconds. -/
def micros (c : Clock) : Nat :=
  ((c.hour * 60 + c.minute) * 60 + c.second) * 1000000 + c.micro

/-- How messages show how far a clock is ahead. -/
def shownAhead (minutes : Int) : String :=
  let days := Int.fdiv minutes minutesPerDay
  let seconds := 60 * Int.fmod minutes minutesPerDay
  if minutes = 0 then "datetime.timezone.utc"
  else if days = 0 then s!"datetime.timezone(datetime.timedelta(seconds={seconds}))"
  else s!"datetime.timezone(datetime.timedelta(days={days}, seconds={seconds}))"

/-- The parts of a reading that messages show: seconds and microseconds
only as far as they are not zero. -/
def shownParts (c : Clock) : List Nat :=
  [c.hour, c.minute] ++
    if c.micro ≠ 0 then [c.second, c.micro] else if c.second ≠ 0 then [c.second] else []

end Clock

namespace Timestamp

/-- Whether a year has a day more than others. -/
def isLeapYear (year : Nat) : Bool :=
  year % 4 = 0 && (year % 100 ≠ 0 || year % 400 = 0)

/-- How many days the months of a year have. -/
def monthLengths (year : Nat) : List Nat :=
  [31, if isLeapYear year then 29 else 28, 31, 30, 31, 30, 31, 31, 30, 31, 30, 31]

/-- Whether there is such a day, and such a reading of a clock. -/
def isValid (t : Timestamp) : Bool :=
  1 ≤ t.year && 1 ≤ t.month && 1 ≤ t.day
    && (monthLengths t.year)[t.month - 1]?.any (t.day ≤ ·) && t.clock.all Clock.isValid

/-- The number of a day, counted from the first day of year one. -/
def dayNumber (t : Timestamp) : Nat :=
  let years := t.year - 1
  365 * years + years / 4 - years / 100 + years / 400
    + ((monthLengths t.year).take (t.month - 1)).foldl Nat.add 0 + (t.day - 1)

/-- The place in the order of days, of moments, or of moments relative to
universal time. -/
def place (t : Timestamp) : Int :=
  match t.clock with
  | none => t.dayNumber
  | some c =>
      let minutes : Int := t.dayNumber * Clock.minutesPerDay - c.ahead.getD 0
      minutes * 60000000 + c.micros

/-- The name of the type of a day or a moment. -/
def typeName (t : Timestamp) : String :=
  if t.clock.isSome then "datetime" else "date"

/-- A day or a moment as messages show it. -/
def shown (t : Timestamp) : String :=
  let parts := [t.year, t.month, t.day] ++ (t.clock.map Clock.shownParts).getD []
  let zone :=
    match t.clock.bind Clock.ahead with
    | some minutes => ["tzinfo=" ++ Clock.shownAhead minutes]
    | none => []
  s!"datetime.{t.typeName}(" ++ ", ".intercalate (parts.map toString ++ zone) ++ ")"

end Timestamp

end Unformat
