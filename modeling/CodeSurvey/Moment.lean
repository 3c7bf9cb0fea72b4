/-
# Moments

A date with a time of day and the offset of its clock from universal time. Moments are ordered by
the instant they name, whatever their offsets; `earliest` is the instant that stands for no moment
at all. Going back some days keeps time and offset and must stay on the calendar.
-/

import CodeSurvey.Calendar
import CodeSurvey.Failure

namespace CodeSurvey

/-- A date, a time of day, and an offset from universal time in microseconds. -/
structure Moment where
  date : Calendar.Date
  hour : Nat := 0
  minute : Nat := 0
  second : Nat := 0
  micro : Nat := 0
  offset : Int := 0
  deriving DecidableEq, Repr

namespace Moment

/-- The first day of 1970. -/
def unixEpoch : Nat := 719163

/-- The moment so many seconds after the start of 1970, in universal time. -/
def ofUnixSeconds (seconds : Nat) : Moment where
  date := Calendar.ofOrdinal (unixEpoch + seconds / 86400)
  hour := seconds % 86400 / 3600
  minute := seconds % 3600 / 60
  second := seconds % 60

/-- The microseconds of a day. -/
def dayMicros : Int := 86400000000

/-- The microseconds since midnight. -/
def timeOfDay (m : Moment) : Int :=
  (((m.hour * 60 + m.minute) * 60 + m.second) * 1000000 + m.micro : Nat)

/-- The microseconds from the start of the calendar in universal time. -/
def instant (m : Moment) : Int := (m.date.ordinal - 1 : Int) * dayMicros + m.timeOfDay - m.offset

/-- The instant that stands for no moment. -/
def earliest : Int := 0

/-- The most days that a span of time can count. -/
def maxDays : Int := 999999999

/-- A span of days must not be too long; a count of days has 32 bits at most. -/
def checkDays (days : Int) : Except Failure Unit :=
  if days < -2147483648 ∨ 2147483647 < days then .error .daysTooLarge
  else if days < -maxDays ∨ maxDays < days then .error (.tooManyDays days)
  else .ok ()

/-- The instant so many days before a moment. -/
def daysBefore (m : Moment) (days : Int) : Except Failure Int := do
  checkDays days
  let day := (m.date.ordinal : Int) - days
  if day < 1 ∨ Calendar.lastOrdinal < day then .error .dateOutOfRange
  else return m.instant - days * dayMicros

end Moment
end CodeSurvey
