import SyncCascade.Numeral

/-!
# Moments of civil time

A moment is a count of seconds since 1970 in UTC and nanoseconds within the second. Nanoseconds from
one to two thousand million belong to a leap second, which follows the 59th second of its minute.
The calendar is the proleptic Gregorian one; its years begin in March while days are counted, so
that a leap day is the last of its year.
-/

namespace SyncCascade

structure Timestamp where
  seconds : Int
  nanos : Nat
deriving DecidableEq, Repr, Inhabited

namespace Timestamp

structure Date where
  year : Int
  month : Nat
  day : Nat
deriving DecidableEq, Repr

def isLeapYear (year : Int) : Bool :=
  year % 4 = 0 && (year % 100 ≠ 0 || year % 400 = 0)

def daysInMonth (year : Int) (month : Nat) : Nat :=
  if month = 2 then (if isLeapYear year then 29 else 28)
  else if month = 4 ∨ month = 6 ∨ month = 9 ∨ month = 11 then 30
  else 31

def Date.toDays (d : Date) : Int :=
  let year := if d.month ≤ 2 then d.year - 1 else d.year
  let era := year / 400
  let yearOfEra := year % 400
  let monthFromMarch := (d.month + 9) % 12
  let dayOfYear : Nat := (153 * monthFromMarch + 2) / 5 + d.day - 1
  era * 146097 + (yearOfEra * 365 + yearOfEra / 4 - yearOfEra / 100 + dayOfYear) - 719468

def Date.ofDays (days : Int) : Date :=
  let shifted := days + 719468
  let era := shifted / 146097
  let dayOfEra := (shifted % 146097).toNat
  let yearOfEra := (dayOfEra - dayOfEra / 1460 + dayOfEra / 36524 - dayOfEra / 146096) / 365
  let dayOfYear := dayOfEra - (365 * yearOfEra + yearOfEra / 4 - yearOfEra / 100)
  let monthFromMarch := (5 * dayOfYear + 2) / 153
  let month := if monthFromMarch < 10 then monthFromMarch + 3 else monthFromMarch - 9
  let year := era * 400 + yearOfEra
  { year := if month ≤ 2 then year + 1 else year
    month := month
    day := dayOfYear - (153 * monthFromMarch + 2) / 5 + 1 }

def ofMillis (ms : Int) : Timestamp := ⟨ms / 1000, (ms % 1000).toNat * 1000000⟩

/-- The years whose moments can be told. -/
def yearInRange (year : Int) : Bool := -262143 ≤ year && year ≤ 262142

/-- A moment of a year that can be told. -/
def ofMillis? (ms : Int) : Option Timestamp :=
  let t := ofMillis ms
  if yearInRange (Date.ofDays (t.seconds / 86400)).year then some t else none

/-- Milliseconds since 1970, rounded down. -/
def toMillis (t : Timestamp) : Int := t.seconds * 1000 + t.nanos / 1000000

def addMillis (t : Timestamp) (ms : Nat) : Timestamp :=
  let nanos := t.nanos + ms % 1000 * 1000000
  ⟨t.seconds + (ms / 1000 : Nat) + (nanos / 1000000000 : Nat), nanos % 1000000000⟩

/-- The start of the year 2000, from which microseconds are counted in a table column. -/
def columnEpoch : Int := 946684800

/-- Without what a count of whole microseconds since `columnEpoch` cannot hold. -/
def toMicroseconds (t : Timestamp) : Timestamp :=
  let micros := ((t.seconds - columnEpoch) * 1000000000 + t.nanos).tdiv 1000
  ⟨columnEpoch + micros / 1000000, (micros % 1000000).toNat * 1000⟩

end Timestamp

end SyncCascade
