/-!
# AccessRegistry.Instant.Basic

Points in time, in seconds and nanoseconds since 1970-01-01T00:00:00Z, and the proleptic Gregorian
calendar. During a leap second the nanoseconds run on from `10 ^ 9` to `2 * 10 ^ 9` while the second
stays the one before it.
-/

namespace AccessRegistry

structure Instant where
  seconds : Int
  nanos : Nat
deriving DecidableEq, Repr, Inhabited

namespace Instant

def nanosPerSecond : Nat := 1000000000

/-- Earlier instants are less; the nanoseconds decide within a second. -/
instance : Ord Instant where
  compare a b := (compare a.seconds b.seconds).then (compare a.nanos b.nanos)

/-- Whole milliseconds since the epoch, rounded down. -/
def millis (t : Instant) : Int := t.seconds * 1000 + t.nanos / 1000000

/-- All nanoseconds since the epoch. -/
def totalNanos (t : Instant) : Int := t.seconds * nanosPerSecond + t.nanos

/-! ## Calendar -/

/-- A day of the calendar. -/
structure Date where
  year : Int
  month : Nat
  day : Nat
deriving DecidableEq, Repr

def isLeapYear (y : Int) : Bool := y % 4 == 0 && (y % 100 != 0 || y % 400 == 0)

def daysInMonth (y : Int) (m : Nat) : Nat :=
  if m = 2 then if isLeapYear y then 29 else 28
  else if m = 4 ∨ m = 6 ∨ m = 9 ∨ m = 11 then 30
  else 31

/-- The years that are represented. -/
def minYear : Int := -262143

def maxYear : Int := 262142

def Date.isValid (d : Date) : Bool :=
  decide (minYear ≤ d.year) && decide (d.year ≤ maxYear) && decide (1 ≤ d.month) &&
    decide (d.month ≤ 12) && decide (1 ≤ d.day) && decide (d.day ≤ daysInMonth d.year d.month)

/-- Days since 1970-01-01. Years are counted from March, so that a leap day ends its year; 400 of
them have 146097 days. -/
def Date.toDays (d : Date) : Int :=
  let y := if d.month ≤ 2 then d.year - 1 else d.year
  let era := y / 400
  let yearOfEra := y % 400
  let monthFromMarch : Int := ((d.month + 9) % 12 : Nat)
  let dayOfYear := (153 * monthFromMarch + 2) / 5 + d.day - 1
  era * 146097 + (yearOfEra * 365 + yearOfEra / 4 - yearOfEra / 100 + dayOfYear) - 719468

/-- The day that is `days` after 1970-01-01. -/
def Date.ofDays (days : Int) : Date :=
  let z := days + 719468
  let era := z / 146097
  let dayOfEra := z % 146097
  let yearOfEra := (dayOfEra - dayOfEra / 1460 + dayOfEra / 36524 - dayOfEra / 146096) / 365
  let dayOfYear := dayOfEra - (365 * yearOfEra + yearOfEra / 4 - yearOfEra / 100)
  let monthFromMarch := (5 * dayOfYear + 2) / 153
  let day := dayOfYear - (153 * monthFromMarch + 2) / 5 + 1
  let month := if monthFromMarch < 10 then monthFromMarch + 3 else monthFromMarch - 9
  let year := yearOfEra + era * 400
  ⟨if month ≤ 2 then year + 1 else year, month.toNat, day.toNat⟩

def secondsPerDay : Int := 86400

def firstSecond : Int := Date.toDays ⟨minYear, 1, 1⟩ * secondsPerDay

def lastSecond : Int := Date.toDays ⟨maxYear, 12, 31⟩ * secondsPerDay + 86399

/-- Whether the instant lies in a represented year. -/
def inRange (t : Instant) : Bool :=
  decide (firstSecond ≤ t.seconds) && decide (t.seconds ≤ lastSecond)

end Instant

end AccessRegistry
