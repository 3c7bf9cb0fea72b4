/-
# The days of the calendar in order

The day after a date and the day before it are found by the lengths of months and years alone
(`Calendar.Date.tomorrow`, `Calendar.Date.yesterday`). The ordinal counts days in this sense: it
grows by one from each day to the next one, over the ends of months and years. To count a day before
the first year as well, `Calendar.Date.dayNumber` counts from four hundred years earlier, after
which leap years recur; on the calendar it differs from the ordinal by the days of these years
(`Calendar.Date.dayNumber_eq`).

A date is earlier than another one in year, month and day exactly if it has the smaller number
(`Calendar.Date.dayNumber_lt_iff`).
-/

import CodeSurvey.Calendar
import Mathlib.Data.List.Lex
import Mathlib.Tactic.IntervalCases

namespace CodeSurvey
namespace Calendar

theorem isLeap_add_cycle (y : Nat) : isLeap (y + 400) = isLeap y := by
  have h4 : (y + 400) % 4 = y % 4 := by omega
  have h100 : (y + 400) % 100 = y % 100 := by omega
  have h400 : (y + 400) % 400 = y % 400 := by omega
  rw [isLeap, isLeap, h4, h100, h400]

/-- The number of days of a year. -/
def daysInYear (y : Nat) : Nat := if isLeap y then 366 else 365

/-- A year ends as many days after it starts as it has. -/
theorem daysBeforeYear_succ {y : Nat} (hy : 1 ≤ y) :
    daysBeforeYear (y + 1) = daysBeforeYear y + daysInYear y := by
  obtain ⟨k, rfl⟩ := Nat.exists_eq_add_of_le' hy
  have hmore : k / 100 ≤ k / 4 := Nat.div_le_div_left (by decide) (by decide)
  have hleap : isLeap (k + 1) = true ↔ 4 ∣ k + 1 ∧ (¬100 ∣ k + 1 ∨ 400 ∣ k + 1) := by
    rw [isLeap, Bool.and_eq_true, Bool.or_eq_true, beq_iff_eq, bne_iff_ne, beq_iff_eq, Ne,
      ← Nat.dvd_iff_mod_eq_zero, ← Nat.dvd_iff_mod_eq_zero, ← Nat.dvd_iff_mod_eq_zero]
  have h100 : 100 ∣ k + 1 → 4 ∣ k + 1 := Nat.dvd_trans (by decide)
  have h400 : 400 ∣ k + 1 → 100 ∣ k + 1 := Nat.dvd_trans (by decide)
  -- A quotient grows by one at the multiples of its divisor.
  simp only [daysBeforeYear, daysInYear, hleap, Nat.add_sub_cancel, Nat.succ_div]
  split_ifs <;> omega

theorem daysBeforeYear_le_of_le {x y : Nat} (h : x ≤ y) : daysBeforeYear x ≤ daysBeforeYear y := by
  induction y, h using Nat.le_induction with
  | base => exact Nat.le_refl _
  | succ y _ ih =>
    refine Nat.le_trans ih ?_
    cases y with
    | zero => exact Nat.le_refl 0
    | succ k =>
      rw [daysBeforeYear_succ (Nat.le_add_left 1 k)]
      exact Nat.le_add_right ..

/-- A month ends as many days after it starts as it has. -/
theorem daysBeforeMonth_succ (y : Nat) {m : Nat} (hm : 1 ≤ m) :
    daysBeforeMonth y (m + 1) = daysBeforeMonth y m + daysInMonth y m := by
  obtain ⟨k, rfl⟩ := Nat.exists_eq_add_of_le' hm
  rw [daysBeforeMonth, daysBeforeMonth, Nat.add_sub_cancel, Nat.add_sub_cancel, List.range_succ,
    List.map_append, total_append]
  rfl

/-- The months before one end before it starts. -/
theorem daysBeforeMonth_add_le_of_lt (y : Nat) {l m : Nat} (hl : 1 ≤ l) (h : l < m) :
    daysBeforeMonth y l + daysInMonth y l ≤ daysBeforeMonth y m := by
  induction m, h using Nat.le_induction with
  | base => exact Nat.le_of_eq (daysBeforeMonth_succ y hl).symm
  | succ m hm ih =>
    rw [daysBeforeMonth_succ y (by omega)]
    omega

/-- A year has the days of its months. -/
theorem daysBeforeMonth_thirteen (y : Nat) : daysBeforeMonth y 13 = daysInYear y := by
  unfold daysBeforeMonth daysInYear daysInMonth
  cases isLeap y <;> decide

theorem one_le_daysInMonth (y m : Nat) : 1 ≤ daysInMonth y m := by
  unfold daysInMonth
  split_ifs <;> decide

theorem daysInMonth_le (y m : Nat) : daysInMonth y m ≤ 31 := by
  unfold daysInMonth
  split_ifs <;> decide

namespace Date

/-- Whether a date is a day of a month, in whatever year. -/
structure IsDay (d : Date) : Prop where
  month_pos : 1 ≤ d.month
  month_le : d.month ≤ 12
  day_pos : 1 ≤ d.day
  day_le : d.day ≤ daysInMonth d.year d.month

theorem isValid_iff {d : Date} : d.isValid ↔ (1 ≤ d.year ∧ d.year ≤ 9999) ∧ d.IsDay := by
  simp only [isValid, Bool.and_eq_true, decide_eq_true_eq]
  constructor
  · rintro ⟨⟨⟨⟨⟨h₁, h₂⟩, h₃⟩, h₄⟩, h₅⟩, h₆⟩
    exact ⟨⟨h₁, h₂⟩, h₃, h₄, h₅, h₆⟩
  · rintro ⟨⟨h₁, h₂⟩, h₃, h₄, h₅, h₆⟩
    exact ⟨⟨⟨⟨⟨h₁, h₂⟩, h₃⟩, h₄⟩, h₅⟩, h₆⟩

/-- The day after a date. -/
def tomorrow (d : Date) : Date :=
  if d.day < daysInMonth d.year d.month then ⟨d.year, d.month, d.day + 1⟩
  else if d.month < 12 then ⟨d.year, d.month + 1, 1⟩
  else ⟨d.year + 1, 1, 1⟩

/-- The day before a date. Before the first year stands a year zero. -/
def yesterday (d : Date) : Date :=
  if 1 < d.day then ⟨d.year, d.month, d.day - 1⟩
  else if 1 < d.month then ⟨d.year, d.month - 1, daysInMonth d.year (d.month - 1)⟩
  else ⟨d.year - 1, 12, 31⟩

/-- The number of a day, counted from four hundred years before the first one. -/
def dayNumber (d : Date) : Nat :=
  daysBeforeYear (d.year + 400) + daysBeforeMonth d.year d.month + d.day

/-- The days of four hundred years. -/
def cycleDays : Nat := 146097

/-- On the calendar the number is the ordinal, but for where it counts from. -/
theorem dayNumber_eq {d : Date} (hd : 1 ≤ d.year) : d.dayNumber = d.ordinal + cycleDays := by
  unfold dayNumber ordinal daysBeforeYear cycleDays
  omega

variable {d e : Date}

/-- A day lies in its month. -/
theorem IsDay.within_month (h : d.IsDay) :
    daysBeforeMonth d.year d.month < daysBeforeMonth d.year d.month + d.day ∧
      daysBeforeMonth d.year d.month + d.day ≤ daysBeforeMonth d.year (d.month + 1) := by
  rw [daysBeforeMonth_succ d.year h.month_pos]
  have := h.day_pos
  have := h.day_le
  omega

/-- A day lies in its year. -/
theorem IsDay.within_year (h : d.IsDay) :
    daysBeforeYear (d.year + 400) < d.dayNumber ∧ d.dayNumber ≤ daysBeforeYear (d.year + 401) := by
  have hyear : daysBeforeYear (d.year + 401) = daysBeforeYear (d.year + 400) +
      daysBeforeMonth d.year 13 := by
    rw [daysBeforeMonth_thirteen, daysBeforeYear_succ (by omega), daysInYear, daysInYear,
      isLeap_add_cycle]
  have hmonths : daysBeforeMonth d.year (d.month + 1) ≤ daysBeforeMonth d.year 13 := by
    rcases Nat.lt_or_ge d.month 12 with hlt | hge
    · exact Nat.le_trans (Nat.le_add_right ..)
        (daysBeforeMonth_add_le_of_lt d.year (Nat.le_add_left 1 _) (by omega))
    · rw [Nat.le_antisymm h.month_le hge]
  have hmonth := h.within_month
  unfold dayNumber
  omega

theorem IsDay.tomorrow (h : d.IsDay) : d.tomorrow.IsDay := by
  have := h.month_le
  unfold Date.tomorrow
  split_ifs with hday hmonth
  · exact ⟨h.month_pos, h.month_le, Nat.le_add_left 1 _, hday⟩
  · exact ⟨Nat.le_add_left 1 _, hmonth, Nat.le_refl 1, one_le_daysInMonth _ _⟩
  · exact ⟨Nat.le_refl 1, Nat.le_add_left 1 11, Nat.le_refl 1, one_le_daysInMonth _ _⟩

theorem IsDay.yesterday (h : d.IsDay) : d.yesterday.IsDay := by
  have hmonth := h.month_le
  have hday := h.day_le
  unfold Date.yesterday
  split_ifs with h₁ h₂
  · exact ⟨h.month_pos, h.month_le, Nat.le_sub_one_of_lt h₁, Nat.le_trans (Nat.sub_le ..) hday⟩
  · exact ⟨Nat.le_sub_one_of_lt h₂, Nat.le_trans (Nat.sub_le ..) hmonth, one_le_daysInMonth _ _,
      Nat.le_refl _⟩
  · exact ⟨Nat.le_add_left 1 11, Nat.le_refl 12, Nat.le_add_left 1 30, Nat.le_refl 31⟩

/-- **The day after a date has the next number.** -/
theorem dayNumber_tomorrow (h : d.IsDay) : d.tomorrow.dayNumber = d.dayNumber + 1 := by
  have hlast := h.day_le
  have hmonth := h.month_le
  unfold tomorrow
  split_ifs with hday hless
  · rfl
  · -- The last day of a month that is not the last one.
    have hnext := daysBeforeMonth_succ d.year h.month_pos
    simp only [dayNumber]
    omega
  · -- The last day of a year.
    obtain ⟨y, m, k⟩ := d
    dsimp only at *
    obtain rfl : m = 12 := by omega
    have hyear : daysBeforeYear (y + 1 + 400) = daysBeforeYear (y + 400) + daysInYear y := by
      rw [Nat.add_right_comm, daysBeforeYear_succ (by omega), daysInYear, daysInYear,
        isLeap_add_cycle]
    have hend := daysBeforeMonth_succ y (show 1 ≤ 12 by decide)
    rw [daysBeforeMonth_thirteen] at hend
    have hstart : daysBeforeMonth (y + 1) 1 = 0 := rfl
    simp only [dayNumber]
    omega

/-- The day after the day before a date of the calendar is this date. -/
theorem tomorrow_yesterday (h : d.IsDay) (hyear : 1 ≤ d.year) : d.yesterday.tomorrow = d := by
  obtain ⟨y, m, k⟩ := d
  have hmonth := h.month_pos
  have hday := h.day_pos
  have hlast := h.day_le
  dsimp only at *
  unfold yesterday
  dsimp only
  split_ifs with h₁ h₂
  · unfold tomorrow
    dsimp only
    rw [if_pos (by omega), Nat.sub_add_cancel hday]
  · obtain rfl : k = 1 := by omega
    unfold tomorrow
    dsimp only
    rw [if_neg (Nat.lt_irrefl _), if_pos (by have := h.month_le; dsimp only at this; omega),
      Nat.sub_add_cancel hmonth]
  · obtain rfl : k = 1 := by omega
    obtain rfl : m = 1 := by omega
    unfold tomorrow
    dsimp only
    have hdecember : ¬31 < daysInMonth (y - 1) 12 := Nat.lt_irrefl 31
    rw [if_neg hdecember, if_neg (Nat.lt_irrefl 12), Nat.sub_add_cancel hyear]

/-- **The day before a date of the calendar has the number before.** -/
theorem dayNumber_yesterday (h : d.IsDay) (hyear : 1 ≤ d.year) :
    d.yesterday.dayNumber + 1 = d.dayNumber := by
  rw [← dayNumber_tomorrow h.yesterday, tomorrow_yesterday h hyear]

/-- Year, month and day. -/
def fields (d : Date) : List Nat := [d.year, d.month, d.day]

/-- A date that is earlier in year, month and day has the smaller number. -/
theorem dayNumber_lt_of_fields_lt (hd : d.IsDay) (he : e.IsDay) (h : d.fields < e.fields) :
    d.dayNumber < e.dayNumber := by
  simp only [fields, List.cons_lt_cons_iff, List.not_lt_nil, and_false, or_false] at h
  rcases h with hyear | ⟨hyear, hmonth | ⟨hmonth, hday⟩⟩
  · have hbetween : daysBeforeYear (d.year + 401) ≤ daysBeforeYear (e.year + 400) :=
      daysBeforeYear_le_of_le (by omega)
    have hend := hd.within_year.2
    have hstart := he.within_year.1
    omega
  · have hbetween := daysBeforeMonth_add_le_of_lt d.year hd.month_pos hmonth
    rw [← daysBeforeMonth_succ d.year hd.month_pos] at hbetween
    have hend := hd.within_month.2
    have hstart := he.within_month.1
    unfold dayNumber
    rw [← hyear] at hstart ⊢
    omega
  · unfold dayNumber
    rw [← hyear, ← hmonth]
    omega

/-- **The earlier date has the smaller number.** -/
theorem dayNumber_lt_iff (hd : d.IsDay) (he : e.IsDay) :
    d.dayNumber < e.dayNumber ↔ d.fields < e.fields := by
  refine ⟨fun h => ?_, dayNumber_lt_of_fields_lt hd he⟩
  rcases lt_trichotomy d.fields e.fields with hlt | heq | hgt
  · exact hlt
  · obtain ⟨y, m, k⟩ := d
    obtain ⟨y', m', k'⟩ := e
    cases heq
    exact absurd h (Nat.lt_irrefl _)
  · exact absurd h (Nat.lt_asymm (dayNumber_lt_of_fields_lt he hd hgt))

end Date
end Calendar
end CodeSurvey
