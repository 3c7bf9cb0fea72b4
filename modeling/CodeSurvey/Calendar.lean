/-
# The calendar

Dates of the years 1 to 9999 in the Gregorian calendar, counted back to its beginning. The ordinal
of a date counts days, with the first day of year 1 as day one. Weeks start on Monday, and the first
week of a year is the one that holds its first Thursday.
-/

import CodeSurvey.Total

namespace CodeSurvey
namespace Calendar

/-- Whether a year has 366 days. -/
def isLeap (y : Nat) : Bool := y % 4 == 0 && (y % 100 != 0 || y % 400 == 0)

/-- The number of days of a month. -/
def daysInMonth (y m : Nat) : Nat :=
  if m == 2 then if isLeap y then 29 else 28
  else if m == 4 || m == 6 || m == 9 || m == 11 then 30
  else 31

/-- The number of days before a year. -/
def daysBeforeYear (y : Nat) : Nat := (y - 1) * 365 + (y - 1) / 4 - (y - 1) / 100 + (y - 1) / 400

/-- The number of days of a year before a month. -/
def daysBeforeMonth (y m : Nat) : Nat :=
  total ((List.range (m - 1)).map fun i => daysInMonth y (i + 1))

/-- A date. -/
structure Date where
  year : Nat
  month : Nat
  day : Nat
  deriving DecidableEq, Repr

namespace Date

/-- Whether the date is on the calendar. -/
def isValid (d : Date) : Bool :=
  1 ≤ d.year && d.year ≤ 9999 && 1 ≤ d.month && d.month ≤ 12 && 1 ≤ d.day &&
    d.day ≤ daysInMonth d.year d.month

/-- The ordinal of a date. -/
def ordinal (d : Date) : Nat := daysBeforeYear d.year + daysBeforeMonth d.year d.month + d.day

end Date

/-- The month and day of the day `n` of a year, counted from zero; `months` are the months left. -/
def monthAndDay (y : Nat) : (months : List Nat) → Nat → Nat × Nat
  | [], n => (12, n + 1)
  | m :: rest, n =>
    if n < daysInMonth y m ∨ rest = [] then (m, n + 1) else monthAndDay y rest (n - daysInMonth y m)

/-- The year in which a day lies, given a year in which or before which it lies. -/
def yearFrom (n : Nat) : (tries : Nat) → Nat → Nat
  | 0, y => y
  | k + 1, y => if n ≤ daysBeforeYear (y + 1) then y else yearFrom n k (y + 1)

/-- The date of an ordinal. A year has at least 365 days, so counting 366 days for each gives a year
that is too early by at most a few. -/
def ofOrdinal (n : Nat) : Date :=
  let y := yearFrom n 40 ((n - 1) / 366 + 1)
  let (m, d) := monthAndDay y [1, 2, 3, 4, 5, 6, 7, 8, 9, 10, 11, 12] (n - daysBeforeYear y - 1)
  ⟨y, m, d⟩

/-- The last ordinal of the calendar. -/
def lastOrdinal : Nat := 3652059

/-- The day of the week of an ordinal, Monday being zero. -/
def weekday (n : Nat) : Nat := (n + 6) % 7

/-- The ordinal of the Monday of the first week of a year. -/
def firstMonday (y : Nat) : Nat :=
  let first := (Date.mk y 1 1).ordinal
  if 3 < weekday first then first + 7 - weekday first else first - weekday first

/-- Whether a year has 53 weeks. -/
def hasLongCount (y : Nat) : Bool :=
  let w := weekday (Date.mk y 1 1).ordinal
  w == 3 || (w == 2 && isLeap y)

/-- The date of a day of a week of a year. -/
def ofWeek? (y week day : Nat) : Option Date :=
  if 1 ≤ y ∧ y ≤ 9999 ∧ 1 ≤ week ∧ (week ≤ 52 ∨ (week = 53 ∧ hasLongCount y)) ∧
      1 ≤ day ∧ day ≤ 7 then
    some (ofOrdinal (firstMonday y + (week - 1) * 7 + day - 1))
  else none

end Calendar
end CodeSurvey
