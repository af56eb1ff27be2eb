import DesignGraph.Yaml.Fault
import DesignGraph.Yaml.Timestamp

/-! # Dates and moments

A timestamp names a day of the calendar or a moment on it. `Timestamp.date` and `Timestamp.moment` give
them if there are such a day, such a time of day and such an offset from universal time. The calendar is
the Gregorian one, for the years 1 to 9999.

Two moments whose offsets are known are the same if they are at the same instant, whatever the offsets
are; one whose offset is not known is the same only as itself (`Moment.isSame`). -/

namespace DesignGraph.Yaml

/-- A day of the calendar. -/
structure Date where
  year : Nat
  month : Nat
  day : Nat
  deriving DecidableEq, Repr

/-- A time of day on a day. -/
structure Moment where
  date : Date
  hour : Nat
  minute : Nat
  second : Nat
  microsecond : Nat
  /-- The seconds that the clock is ahead of universal time, if that is known. -/
  ahead : Option Int
  deriving DecidableEq, Repr

/-- Whether a year has a leap day. -/
def isLeapYear (year : Nat) : Bool := year % 4 == 0 && (year % 100 != 0 || year % 400 == 0)

/-- The number of days of a month. -/
def daysOfMonth (year month : Nat) : Nat :=
  if month = 2 then if isLeapYear year then 29 else 28
  else if month = 4 ∨ month = 6 ∨ month = 9 ∨ month = 11 then 30
  else 31

/-- The number of days from the first day of the calendar to a day. -/
def Date.dayNumber (d : Date) : Nat :=
  let years := d.year - 1
  let months := (List.range (d.month - 1)).map fun m => daysOfMonth d.year (m + 1)
  365 * years + years / 4 - years / 100 + years / 400 + months.foldl (· + ·) 0 + (d.day - 1)

/-- The seconds of a day. -/
def secondsPerDay : Nat := 86400

/-- The microseconds from the first instant of the calendar in universal time, on a clock that is ahead by
some seconds. -/
def Moment.instant (m : Moment) (ahead : Int) : Int :=
  let seconds := secondsPerDay * m.date.dayNumber + 3600 * m.hour + 60 * m.minute + m.second
  1000000 * (seconds - ahead) + m.microsecond

/-- Whether two moments are the same. -/
def Moment.isSame (m n : Moment) : Bool :=
  match m.ahead, n.ahead with
  | some a, some b => m.instant a == n.instant b
  | _, _ => m == n

/-- The seconds that a written offset is ahead of universal time. -/
def Offset.ahead : Offset → Except BadValue (Option Int)
  | none => .ok .none
  | zulu => .ok (some 0)
  | hoursMinutes behind hours minutes =>
    let seconds : Int := hours * 3600 + minutes * 60
    let ahead := if behind then -seconds else seconds
    if seconds < secondsPerDay then .ok (some ahead)
    else .error (.offset (ahead / secondsPerDay) (ahead % secondsPerDay).toNat)

/-- The microseconds that the digits of a fraction of a second write; digits behind the sixth are
dropped. -/
def microseconds (fraction : List Char) : Nat :=
  let digits := fraction.take 6
  decimalNumber (digits ++ List.replicate (6 - digits.length) '0')

namespace Timestamp

/-- The day that a timestamp names. -/
def date (t : Timestamp) : Except BadValue Date :=
  if t.year = 0 then .error (.year 0)
  else if t.month = 0 ∨ 12 < t.month then .error .month
  else if t.day = 0 ∨ daysOfMonth t.year t.month < t.day then .error .day
  else .ok ⟨t.year, t.month, t.day⟩

/-- The moment that a timestamp with a time of day names. -/
def moment (t : Timestamp) (c : ClockTime) : Except BadValue Moment := do
  let ahead ← c.offset.ahead
  let date ← t.date
  if 23 < c.hour then throw .hour
  if 59 < c.minute then throw .minute
  if 59 < c.second then throw .second
  return ⟨date, c.hour, c.minute, c.second, microseconds c.fraction, ahead⟩

end Timestamp

end DesignGraph.Yaml
