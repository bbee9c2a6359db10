/-!
# The civil calendar

Days since the start of 1970 and dates of the proleptic Gregorian calendar, in both directions. Four
hundred years have 146097 days, whatever year they start in; within them a year is counted from the
first of March, so that the day that leap years insert is the last one of its year.
-/

namespace Tidemark

/-- A date: the year, the month from 1 and the day of the month from 1. -/
structure Date where
  year : Int
  month : Nat
  day : Nat
  deriving DecidableEq, Repr

namespace Date

def isLeap (year : Int) : Bool :=
  year % 4 = 0 && (year % 100 ≠ 0 || year % 400 = 0)

/-- The number of days of a month. -/
def daysIn (year : Int) (month : Nat) : Nat :=
  if month = 2 then if isLeap year then 29 else 28
  else if month = 4 ∨ month = 6 ∨ month = 9 ∨ month = 11 then 30
  else 31

/-- Whether the date exists. -/
def Valid (d : Date) : Prop :=
  1 ≤ d.month ∧ d.month ≤ 12 ∧ 1 ≤ d.day ∧ d.day ≤ daysIn d.year d.month

instance (d : Date) : Decidable d.Valid := by unfold Valid; infer_instance

/-- Days from 1970-01-01 to the date. -/
def toDays (d : Date) : Int :=
  let y := if d.month ≤ 2 then d.year - 1 else d.year
  let era := Int.fdiv y 400
  let yearOfEra := y - era * 400
  let fromMarch : Int := (d.month + 9) % 12
  let dayOfYear := (153 * fromMarch + 2) / 5 + d.day - 1
  let dayOfEra := yearOfEra * 365 + yearOfEra / 4 - yearOfEra / 100 + dayOfYear
  era * 146097 + dayOfEra - 719468

/-- The date of a number of days from 1970-01-01. -/
def ofDays (days : Int) : Date :=
  let z := days + 719468
  let era := Int.fdiv z 146097
  let dayOfEra := z - era * 146097
  let yearOfEra := (dayOfEra - dayOfEra / 1460 + dayOfEra / 36524 - dayOfEra / 146096) / 365
  let dayOfYear := dayOfEra - (365 * yearOfEra + yearOfEra / 4 - yearOfEra / 100)
  let fromMarch := (5 * dayOfYear + 2) / 153
  let day := dayOfYear - (153 * fromMarch + 2) / 5 + 1
  let month := if fromMarch < 10 then fromMarch + 3 else fromMarch - 9
  let year := yearOfEra + era * 400 + (if month ≤ 2 then 1 else 0)
  ⟨year, month.toNat, day.toNat⟩

/-- The first and the last year that dates are written and read for. -/
def firstYear : Int := -262143
def lastYear : Int := 262142

end Date

/-- A time of day. `second` is 60 in a leap second; `nanos` are those of the second. -/
structure TimeOfDay where
  hour : Nat
  minute : Nat
  second : Nat
  nanos : Nat
  deriving DecidableEq, Repr

namespace TimeOfDay

/-- Whether the time may be given. -/
def Valid (t : TimeOfDay) : Prop :=
  t.hour < 24 ∧ t.minute < 60 ∧ t.second ≤ 60 ∧ t.nanos < 1000000000

instance (t : TimeOfDay) : Decidable t.Valid := by unfold Valid; infer_instance

/-- Whole milliseconds since midnight. -/
def millis (t : TimeOfDay) : Nat :=
  ((t.hour * 60 + t.minute) * 60 + t.second) * 1000 + t.nanos / 1000000

end TimeOfDay

/-- A date with a time of day. -/
structure DateTime where
  date : Date
  time : TimeOfDay
  deriving DecidableEq, Repr

namespace DateTime

/-- Milliseconds from the start of 1970 when the date and time are those at longitude zero. -/
def toMillis (t : DateTime) : Int :=
  t.date.toDays * 86400000 + t.time.millis

/-- The date and time of a number of milliseconds. -/
def ofMillis (millis : Int) : DateTime :=
  let days := Int.fdiv millis 86400000
  let rest := (millis - days * 86400000).toNat
  { date := Date.ofDays days
    time :=
      { hour := rest / 3600000
        minute := rest / 60000 % 60
        second := rest / 1000 % 60
        nanos := rest % 1000 * 1000000 } }

end DateTime

end Tidemark
