/-!
# Points of time

An `Instant` counts the seconds since 1970 in UTC and the nanoseconds since the second began;
a second may last two billion nanoseconds, the second half being a leap second. `Date` is a day
of the proleptic Gregorian calendar.
-/

set_option autoImplicit false

namespace EventFlow

/-- A point of time in UTC. -/
structure Instant where
  seconds : Int
  nanos : Fin 2000000000
deriving DecidableEq, Inhabited

/-- A day of the Gregorian calendar, years before 1 counted as 0, -1, -2, … -/
structure Date where
  year : Int
  month : Nat
  day : Nat
deriving DecidableEq

namespace Instant

/-- Whether one point of time comes before another. -/
def before (a b : Instant) : Bool :=
  decide (a.seconds < b.seconds) || (a.seconds == b.seconds && decide (a.nanos < b.nanos))

/-- Whether one point of time comes before another or is the same. -/
def notAfter (a b : Instant) : Bool := !b.before a

/-- The next point of time that a clock can tell from this one. -/
def succ (a : Instant) : Instant :=
  if h : a.nanos.val + 1 < 1000000000 then ⟨a.seconds, ⟨a.nanos.val + 1, by omega⟩⟩
  else ⟨a.seconds + 1, ⟨0, by omega⟩⟩

theorem before_irrefl (a : Instant) : a.before a = false := by simp [before]

theorem before_iff {a b : Instant} :
    a.before b = true ↔ a.seconds < b.seconds ∨ (a.seconds = b.seconds ∧ a.nanos < b.nanos) := by
  simp [before]

end Instant

namespace Date

/-- Whether a year has a 29th of February. -/
def isLeap (year : Int) : Bool :=
  decide (year % 4 = 0) && (decide (year % 100 ≠ 0) || decide (year % 400 = 0))

/-- The number of days of a month. -/
def daysIn (year : Int) (month : Nat) : Nat :=
  if month = 2 then (if isLeap year then 29 else 28)
  else if month = 4 ∨ month = 6 ∨ month = 9 ∨ month = 11 then 30
  else 31

/-- The earliest and the latest year that are told. -/
def years : Int × Int := (-262143, 262142)

/-- A year, month and day, if there is such a date. -/
def ofParts? (year : Int) (month day : Nat) : Option Date :=
  if years.1 ≤ year ∧ year ≤ years.2 ∧ 1 ≤ month ∧ month ≤ 12 ∧ 1 ≤ day ∧ day ≤ daysIn year month
  then some ⟨year, month, day⟩
  else none

/-- The number of days from the first of January 1970 to a date. Years begin in March here, so
that the leap day is their last. -/
def toDays (d : Date) : Int :=
  let year := if d.month ≤ 2 then d.year - 1 else d.year
  let month : Int := if 2 < d.month then d.month - 3 else d.month + 9
  let era := year.fdiv 400
  let yearOfEra := year - era * 400
  let dayOfYear := (153 * month + 2) / 5 + (d.day : Int) - 1
  let dayOfEra := yearOfEra * 365 + yearOfEra / 4 - yearOfEra / 100 + dayOfYear
  era * 146097 + dayOfEra - 719468

/-- The date that lies a number of days after the first of January 1970. -/
def ofDays (days : Int) : Date :=
  let z := days + 719468
  let era := z.fdiv 146097
  let dayOfEra := z - era * 146097
  let yearOfEra := (dayOfEra - dayOfEra / 1460 + dayOfEra / 36524 - dayOfEra / 146096) / 365
  let dayOfYear := dayOfEra - (365 * yearOfEra + yearOfEra / 4 - yearOfEra / 100)
  let month := (5 * dayOfYear + 2) / 153
  let day := dayOfYear - (153 * month + 2) / 5 + 1
  let year := yearOfEra + era * 400
  if month < 10 then ⟨year, (month + 3).toNat, day.toNat⟩
  else ⟨year + 1, (month - 9).toNat, day.toNat⟩

end Date

namespace Instant

/-- The day on which a point of time lies in UTC. -/
def date (a : Instant) : Date := Date.ofDays (a.seconds.fdiv 86400)

/-- Whether the day of a point of time lies in a year that is told. -/
def isTold (a : Instant) : Bool :=
  decide (Date.years.1 ≤ a.date.year ∧ a.date.year ≤ Date.years.2)

end Instant

end EventFlow
