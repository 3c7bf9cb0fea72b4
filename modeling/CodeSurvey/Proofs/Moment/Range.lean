/-
# Moments are on the calendar

A date of the calendar has an ordinal between the first and the last
(`Calendar.Date.ordinal_between`), and only such dates are read (`Moment.isValid_of_ofDate?`). So
going back some days from a moment that was read can leave the calendar at its start alone: it gives
an instant exactly if the days are fewer than the ordinal of the date (`Moment.daysBefore_of_lt`),
and otherwise it fails in a way that the number of days decides (`Moment.daysBefore_of_le`). What
counts is the date on the clock of the moment, not the day in universal time.
-/

import CodeSurvey.Moment.Reader
import Mathlib.Data.Option.Basic
import Mathlib.Tactic.IntervalCases

namespace CodeSurvey

namespace Calendar

/-- The days of a year up to the end of a month are at most those of the year. -/
theorem daysBeforeMonth_add_le (y : Nat) {m : Nat} (hm : m ≤ 12) :
    daysBeforeMonth y m + daysInMonth y m ≤ if isLeap y then 366 else 365 := by
  unfold daysBeforeMonth daysInMonth
  cases isLeap y <;> interval_cases m <;> decide

/-- A date of the calendar has an ordinal of the calendar. -/
theorem Date.ordinal_between {d : Date} (h : d.isValid) :
    1 ≤ d.ordinal ∧ d.ordinal ≤ lastOrdinal := by
  simp only [isValid, Bool.and_eq_true, decide_eq_true_eq] at h
  obtain ⟨⟨⟨⟨⟨-, hyear⟩, -⟩, hmonth⟩, hday⟩, hlast⟩ := h
  have hmonths := daysBeforeMonth_add_le d.year hmonth
  unfold ordinal
  refine ⟨by omega, ?_⟩
  unfold daysBeforeYear lastOrdinal
  by_cases hlatest : d.year = 9999
  · -- The last year has no leap day, so that its last day is the last of all.
    have hleap : isLeap d.year = false := by
      rw [hlatest]
      rfl
    rw [hleap] at hmonths
    simp only [Bool.false_eq_true, if_false] at hmonths
    omega
  · split at hmonths <;> omega

end Calendar

namespace MomentReader

theorem isValid_of_moment? {d : Calendar.Date} {t : ClockTime} {offset : Int} {m : Moment}
    (h : moment? d t offset = some m) : m.date.isValid := by
  unfold moment? at h
  split at h
  · rename_i hvalid
    simp only [Bool.and_eq_true] at hvalid
    rw [← Option.some.inj h]
    exact hvalid.1.1.1
  · cases h

theorem isValid_of_read? {cs : List Char} {m : Moment} (h : read? cs = some m) :
    m.date.isValid := by
  unfold read? at h
  split at h
  · cases h
  · obtain ⟨d, -, h⟩ := Option.bind_eq_some_iff.1 h
    split at h
    · exact isValid_of_moment? h
    · obtain ⟨_, -, h⟩ := Option.bind_eq_some_iff.1 h
      exact isValid_of_moment? h

end MomentReader

namespace Moment

/-- Only dates of the calendar are read. -/
theorem isValid_of_ofDate? {date : String} {m : Moment} (h : ofDate? date = some m) :
    m.date.isValid := by
  unfold ofDate? MomentReader.ofCommitDate? at h
  dsimp only at h
  split at h <;> exact MomentReader.isValid_of_read? h

/-- How going back some days fails that leads past the start of the calendar: so many days may be
too many to count or to make a span. -/
def faultBefore (days : Int) : Failure :=
  if 2147483647 < days then .daysTooLarge else if maxDays < days then .tooManyDays days
  else .dateOutOfRange

/-- Days that can be made a span, and how the others fail. -/
theorem checkDays_of_pos {days : Int} (h : 0 < days) :
    checkDays days = if days ≤ maxDays then .ok () else .error (faultBefore days) := by
  unfold checkDays faultBefore maxDays
  split_ifs <;> first | rfl | omega

/-- Going back fewer days than there are up to a date stays on the calendar. -/
theorem daysBefore_of_lt {m : Moment} (hm : m.date.isValid) {days : Int} (hdays : 0 < days)
    (h : days < m.date.ordinal) : m.daysBefore days = .ok (m.instant - days * dayMicros) := by
  have hlast : (m.date.ordinal : Int) ≤ Calendar.lastOrdinal :=
    Int.ofNat_le.2 (Calendar.Date.ordinal_between hm).2
  have hspan : days ≤ maxDays := by
    have hcalendar : (Calendar.lastOrdinal : Int) ≤ maxDays := by decide
    omega
  have hday : ¬((m.date.ordinal : Int) - days < 1 ∨
      Calendar.lastOrdinal < (m.date.ordinal : Int) - days) := by omega
  rw [daysBefore, checkDays_of_pos hdays, if_pos hspan]
  exact if_neg hday

/-- Going back as many days as there are up to a date, or more, leads past the
start of the calendar. -/
theorem daysBefore_of_le {m : Moment} {days : Int} (hdays : 0 < days) (h : m.date.ordinal ≤ days) :
    m.daysBefore days = .error (faultBefore days) := by
  rw [daysBefore, checkDays_of_pos hdays]
  by_cases hspan : days ≤ maxDays
  · have hday : (m.date.ordinal : Int) - days < 1 ∨
        Calendar.lastOrdinal < (m.date.ordinal : Int) - days := by omega
    have hfault : faultBefore days = .dateOutOfRange := by
      unfold faultBefore
      unfold maxDays at hspan ⊢
      rw [if_neg (by omega), if_neg (by omega)]
    rw [if_pos hspan, hfault]
    exact if_pos hday
  · rw [if_neg hspan]
    rfl

end Moment
end CodeSurvey
