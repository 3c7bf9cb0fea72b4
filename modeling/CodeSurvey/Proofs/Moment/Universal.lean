/-
# Dates in the order of their instants

What a clock shows that is ahead of universal time or behind it lies at most one day off: taking
back the offset leads to the same date, to the day after it or to the day before it, over the ends
of months and years. So year, month, day, hour, minute and second in universal time are found
without counting days (`WrittenMoment.universal`).

The instant of a written moment counts the seconds up to this reading
(`WrittenMoment.instant_moment`), and readings in universal time are in order exactly if their
seconds are (`WrittenMoment.universal_lt_iff`). So dates are compared by the instants that they
name, however they are written, and the latest commits are those with the latest readings
(`WrittenMoment.dates_in_order`).
-/

import CodeSurvey.Proofs.Moment.Written
import CodeSurvey.Proofs.Sorting
import CodeSurvey.Survey.Preparation

namespace CodeSurvey
namespace WrittenMoment

open Calendar

variable (w : WrittenMoment) {a b : WrittenMoment}

/-- The date in universal time and the minutes since its midnight. -/
def universalDay : Date × Int :=
  let minutes : Int := w.hour * 60 + w.minute - w.zone.minutes
  if minutes < 0 then (w.date.yesterday, minutes + 1440)
  else if minutes < 1440 then (w.date, minutes)
  else (w.date.tomorrow, minutes - 1440)

/-- Year, month, day, hour, minute and second in universal time. -/
def universal : List Nat :=
  let (day, minutes) := w.universalDay
  [day.year, day.month, day.day, (minutes / 60).toNat, (minutes % 60).toNat, w.second]

/-- The minutes in universal time, from where days are numbered. -/
def universalMinutes : Int := w.universalDay.1.dayNumber * 1440 + w.universalDay.2

/-- The date in universal time is a day, with a minute of it, and as many minutes off the date of
the clock as this is off. -/
theorem universalDay_spec :
    w.universalDay.1.IsDay ∧ (0 ≤ w.universalDay.2 ∧ w.universalDay.2 < 1440) ∧
    w.universalMinutes = w.date.dayNumber * 1440 + (w.hour * 60 + w.minute) - w.zone.minutes := by
  obtain ⟨⟨hyear, -⟩, hday⟩ := Date.isValid_iff.1 w.date_valid
  have hbefore := Date.dayNumber_yesterday hday hyear
  have hafter := Date.dayNumber_tomorrow hday
  have hzone := w.zone.minutes_between
  have hour_lt := w.hour_lt
  have minute_lt := w.minute_lt
  unfold universalMinutes universalDay
  dsimp only
  split_ifs
  · refine ⟨hday.yesterday, ?_⟩
    dsimp only
    omega
  · refine ⟨hday, ?_⟩
    dsimp only
    omega
  · refine ⟨hday.tomorrow, ?_⟩
    dsimp only
    omega

/-- **The instant of a written moment** in seconds of universal time. -/
theorem instant_moment : w.moment.instant =
    (w.universalMinutes * 60 + w.second) * 1000000 - (Date.cycleDays + 1) * Moment.dayMicros := by
  obtain ⟨⟨hyear, -⟩, -⟩ := Date.isValid_iff.1 w.date_valid
  have hnumber := Date.dayNumber_eq hyear
  have hminutes := w.universalDay_spec.2.2
  simp only [Moment.instant, Moment.timeOfDay, moment, Moment.dayMicros]
  omega

/-- Two readings of which one has the earlier date, or the same date and the earlier time. -/
theorem universal_lt_iff_fields : a.universal < b.universal ↔
    a.universalDay.1.fields < b.universalDay.1.fields ∨
      a.universalDay.1.fields = b.universalDay.1.fields ∧
      [(a.universalDay.2 / 60).toNat, (a.universalDay.2 % 60).toNat, a.second] <
        [(b.universalDay.2 / 60).toNat, (b.universalDay.2 % 60).toNat, b.second] := by
  simp only [universal, Date.fields, List.cons_lt_cons_iff, List.cons.injEq, List.not_lt_nil,
    and_false, or_false, and_true]
  tauto

/-- **Readings in universal time are in the order of their seconds.** -/
theorem universal_lt_iff : a.universal < b.universal ↔
    a.universalMinutes * 60 + a.second < b.universalMinutes * 60 + b.second := by
  obtain ⟨haday, hatime, -⟩ := a.universalDay_spec
  obtain ⟨hbday, hbtime, -⟩ := b.universalDay_spec
  have hasecond := a.second_lt
  have hbsecond := b.second_lt
  have hlt := Date.dayNumber_lt_iff haday hbday
  have hgt := Date.dayNumber_lt_iff hbday haday
  rw [universal_lt_iff_fields, ← hlt]
  unfold universalMinutes
  rcases lt_trichotomy a.universalDay.1.fields b.universalDay.1.fields with hdate | hdate | hdate
  · have := hlt.2 hdate
    omega
  · have heq : a.universalDay.1.dayNumber = b.universalDay.1.dayNumber := by
      have := mt hlt.1 (hdate ▸ lt_irrefl _)
      have := mt hgt.1 (hdate ▸ lt_irrefl _)
      omega
    simp only [hdate, heq, List.cons_lt_cons_iff, and_false, or_false, true_and,
      lt_irrefl, false_or]
    omega
  · have := hgt.2 hdate
    have hne : a.universalDay.1.fields ≠ b.universalDay.1.fields :=
      fun he => lt_irrefl _ (he ▸ hdate)
    simp only [hne, false_and, or_false]
    omega

/-- **Dates are compared by what universal time shows.** -/
theorem commitInstant_lt_iff :
    commitInstant a.text < commitInstant b.text ↔ a.universal < b.universal := by
  have hdayMicros : Moment.dayMicros = 86400000000 := rfl
  rw [commitInstant, commitInstant, ofDate?_text, ofDate?_text, universal_lt_iff]
  dsimp only
  rw [instant_moment, instant_moment]
  omega

/-- Dates name one instant exactly if universal time shows the same at both. -/
theorem commitInstant_eq_iff :
    commitInstant a.text = commitInstant b.text ↔ a.universal = b.universal := by
  have hlt := @commitInstant_lt_iff a b
  have hgt := @commitInstant_lt_iff b a
  constructor
  · intro h
    refine le_antisymm (not_lt.1 (mt hgt.2 ?_)) (not_lt.1 (mt hlt.2 ?_))
    · exact h ▸ lt_irrefl _
    · exact h ▸ lt_irrefl _
  · intro h
    have := mt hlt.1 (h ▸ lt_irrefl _)
    have := mt hgt.1 (h ▸ lt_irrefl _)
    omega

/-- **Dates in the order of their instants.** A moment is read back as it was written, with `Z` and
without an offset as one of universal time, whatever blanks stand around it. Of two written moments
the one is earlier that universal time shows as earlier. Of commits with such dates the preparation
keeps the latest ones: they stand in an order, latest first, in which equally late ones stand as
before, and as many are kept from the front as the limit says. -/
theorem dates_in_order :
    (∀ w : WrittenMoment,
      Moment.ofDate? w.text =
        some ⟨w.date, w.hour, w.minute, w.second, 0, w.zone.minutes * 60000000⟩) ∧
    (∀ a b : WrittenMoment, commitInstant a.text < commitInstant b.text ↔
      a.universal < b.universal) ∧
    ∀ (limit : Int) (commits : List Commit) (written : Commit → WrittenMoment), 1 ≤ limit →
      (∀ c ∈ commits, c.date = (written c).text) →
      ∃ ordered : List Commit, ordered.Perm commits ∧
        ordered.Pairwise (fun c d => ¬(written c).universal < (written d).universal) ∧
        (∀ u, ordered.filter (fun c => (written c).universal == u) = commits.filter fun c =>
          (written c).universal == u) ∧
        Preparation.commits limit commits =
          (ordered.take limit.toNat).map Preparation.prepareCommit := by
  refine ⟨ofDate?_text, fun _ _ => commitInstant_lt_iff,
    fun limit commits written hlimit hdates => ?_⟩
  obtain ⟨hperm, hordered, hstable⟩ :=
    sortedDown_mergeSort (fun c : Commit => commitInstant c.date) commits
  have hmem : ∀ c ∈ latestFirst (·.date) commits, c ∈ commits := fun c hc => hperm.mem_iff.1 hc
  have hdated : ∀ c ∈ latestFirst (·.date) commits, c.date = (written c).text :=
    fun c hc => hdates c (hmem c hc)
  refine ⟨latestFirst (·.date) commits, hperm, ?_, fun u => ?_, ?_⟩
  · refine hordered.imp_of_mem fun {c d} hc hd hle => ?_
    rw [← commitInstant_lt_iff, ← hdated c hc, ← hdated d hd]
    exact not_lt.2 hle
  · by_cases hsome : ∃ c ∈ commits, (written c).universal = u
    · obtain ⟨c, hc, rfl⟩ := hsome
      -- Among these commits, one reading is one instant.
      have hsame : ∀ d : Commit, d.date = (written d).text →
          ((written d).universal == (written c).universal) =
            (commitInstant d.date == commitInstant c.date) := by
        intro d hd
        rw [Bool.eq_iff_iff, beq_iff_eq, beq_iff_eq, hd, hdates c hc, commitInstant_eq_iff]
      rw [List.filter_congr fun d hd => hsame d (hdated d hd),
        List.filter_congr fun d hd => hsame d (hdates d hd)]
      exact hstable _
    · have hnone : ∀ c ∈ commits, ¬((written c).universal == u) = true :=
        fun c hc h => hsome ⟨c, hc, beq_iff_eq.1 h⟩
      rw [List.filter_eq_nil_iff.2 hnone]
      exact List.filter_eq_nil_iff.2 fun c hc => hnone c (hmem c hc)
  · rw [Preparation.commits, upTo_of_nonneg (by omega)]

/-- Three moments around the start of a year, on clocks of three zones; the first and
the last are one moment. -/
def newYear (c : Commit) : WrittenMoment :=
  if c.sha = "first" then
    ⟨⟨2023, 12, 31⟩, 23, 30, 0, .shifted true 60, [' '], ['\n'], by decide,
      List.all_eq_true.1 (by decide)⟩
  else if c.sha = "second" then ⟨⟨2024, 1, 1⟩, 1, 0, 0, .shifted false 90, [], [], by decide, nofun⟩
  else ⟨⟨2024, 1, 1⟩, 0, 30, 0, .universal, [], [], by decide, nofun⟩

/-- Commits at these moments. -/
def newYearCommits : List Commit :=
  [{ sha := "first", date := " 2023-12-31T23:30:00-01:00\n" },
    { sha := "second", date := "2024-01-01T01:00:00+01:30" },
    { sha := "third", date := "2024-01-01T00:30:00Z" }]

/-- The year starts with two commits in it; the other one is of the year
before in universal time. -/
theorem dates_in_order_of_new_year :
    (1 : Int) ≤ 2 ∧ (∀ c ∈ newYearCommits, c.date = (newYear c).text) ∧
    newYearCommits.map (newYear · |>.universal) =
      [[2024, 1, 1, 0, 30, 0], [2023, 12, 31, 23, 30, 0], [2024, 1, 1, 0, 30, 0]] ∧
    ∃ ordered : List Commit, ordered.Perm newYearCommits ∧
      ordered.Pairwise (fun c d => ¬(newYear c).universal < (newYear d).universal) ∧
      (∀ u, ordered.filter (fun c => (newYear c).universal == u) =
        newYearCommits.filter fun c => (newYear c).universal == u) ∧
      Preparation.commits 2 newYearCommits = (ordered.take 2).map Preparation.prepareCommit := by
  have hdates : ∀ c ∈ newYearCommits, c.date = (newYear c).text := by decide +kernel
  exact ⟨by decide, hdates, by decide +kernel,
    dates_in_order.2.2 2 newYearCommits newYear (by decide) hdates⟩

end WrittenMoment
end CodeSurvey
