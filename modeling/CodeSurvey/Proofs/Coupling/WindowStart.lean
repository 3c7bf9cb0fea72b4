/-
# Where the window starts

The window is counted back from the newest of the dates that can be read, the first of equally new
ones (`newest?_eq_some_iff`). The days are taken off its date as the clock at its place shows it,
and the calendar has no day before the first of year 1. So there is a window exactly if the days are
fewer than the ordinal of that date (`StartsOnCalendar`), and nothing else keeps the commits from
coupling files (`commitCouplings_defined`).

Settings are asked for a positive number of days and no more than that. Whatever number they give,
some commit is too early for it; and one that is great enough fails with every commit whose date can
be read (`commitCouplings_of_endless_window`), though it asks for nothing but all commits.
-/

import CodeSurvey.Proofs.Coupling.Window
import CodeSurvey.Proofs.Moment.Range
import CodeSurvey.Proofs.Settings

namespace CodeSurvey
namespace Coupling

/-- The moments that the dates of some commits name, as far as they can be read. -/
def moments (commits : List Commit) : List Moment :=
  commits.filterMap fun c => Moment.ofDate? c.date

/-- Whether a moment is the newest among some, the first of equally new ones. -/
def IsFirstNewest (ms : List Moment) (m : Moment) : Prop :=
  ∃ before after, ms = before ++ m :: after ∧ (∀ n ∈ before, n.instant < m.instant) ∧
    ∀ n ∈ after, n.instant ≤ m.instant

/-- The first newest moment is a newest one. -/
theorem IsFirstNewest.isNewest {ms : List Moment} {m : Moment} (h : IsFirstNewest ms m) :
    IsNewest ms (some m) := by
  obtain ⟨before, after, rfl, hbefore, hafter⟩ := h
  refine ⟨List.mem_append_right _ (List.mem_cons_self ..), fun n hn => ?_⟩
  rcases List.mem_append.1 hn with hn | hn
  · exact Int.le_of_lt (hbefore n hn)
  · rcases List.mem_cons.1 hn with rfl | hn
    · exact Int.le_refl _
    · exact hafter n hn

/-- There is one first newest moment at most. -/
theorem IsFirstNewest.unique {ms : List Moment} {m n : Moment} (hm : IsFirstNewest ms m)
    (hn : IsFirstNewest ms n) : m = n := by
  -- Of two such moments, one that stood before the other would be both earlier and not.
  have hfirst : ∀ {m n : Moment} {before after before' after' : List Moment},
      before ++ m :: after = before' ++ n :: after' → before.length < before'.length →
      (∀ k ∈ before', k.instant < n.instant) → (∀ k ∈ after, k.instant ≤ m.instant) → False := by
    intro m n before after before' after' heq hlength hbefore' hafter
    obtain ⟨middle, rfl, hmiddle⟩ | ⟨middle, rfl, -⟩ := List.append_eq_append_iff.1 heq
    · cases middle with
      | nil => simp at hlength
      | cons x middle =>
        obtain ⟨rfl, rfl⟩ := List.cons.inj hmiddle
        have hlt := hbefore' m (List.mem_append_right _ (List.mem_cons_self ..))
        have hle := hafter n (List.mem_append_right _ (List.mem_cons_self ..))
        omega
    · rw [List.length_append] at hlength
      omega
  obtain ⟨before, after, rfl, hbefore, hafter⟩ := hm
  obtain ⟨before', after', heq, hbefore', hafter'⟩ := hn
  rcases Nat.lt_trichotomy before.length before'.length with hlt | hlength | hgt
  · exact (hfirst heq hlt hbefore' hafter).elim
  · exact (List.cons.inj (List.append_inj heq hlength).2).1
  · exact (hfirst heq.symm hgt hbefore hafter').elim

theorem isFirstNewest_of_newest? {ms : List Moment} {m : Moment} (h : newest? ms = some m) :
    IsFirstNewest ms m := by
  induction ms using List.reverseRecOn generalizing m with
  | nil => cases h
  | append_singleton ms x ih =>
    rw [newest?, List.foldl_concat, ← newest?] at h
    cases hbest : newest? ms with
    | none =>
      have hnil := newest?_isNewest ms
      rw [hbest] at h hnil
      obtain rfl : ms = [] := hnil
      obtain rfl := Option.some.inj h
      exact ⟨[], [], rfl, fun n hn => absurd hn List.not_mem_nil,
        fun n hn => absurd hn List.not_mem_nil⟩
    | some b =>
      rw [hbest] at h
      have hfirst := ih hbest
      by_cases hlater : b.instant < x.instant
      · simp only [hlater, if_true] at h
        obtain rfl := Option.some.inj h
        exact ⟨ms, [], rfl, fun n hn => Int.lt_of_le_of_lt (hfirst.isNewest.2 n hn) hlater,
          fun n hn => absurd hn List.not_mem_nil⟩
      · simp only [hlater, if_false] at h
        obtain rfl := Option.some.inj h
        obtain ⟨before, after, rfl, hbefore, hafter⟩ := hfirst
        refine ⟨before, after ++ [x], by simp, hbefore, fun n hn => ?_⟩
        rcases List.mem_append.1 hn with hn | hn
        · exact hafter n hn
        · rw [List.mem_singleton.1 hn]
          exact Int.not_lt.1 hlater

/-- **The newest moment** is the first of those that none is later than. -/
theorem newest?_eq_some_iff {ms : List Moment} {m : Moment} :
    newest? ms = some m ↔ IsFirstNewest ms m := by
  refine ⟨isFirstNewest_of_newest?, fun h => ?_⟩
  cases hbest : newest? ms with
  | none =>
    have hnil := newest?_isNewest ms
    rw [hbest] at hnil
    obtain rfl : ms = [] := hnil
    exact absurd h.isNewest.1 List.not_mem_nil
  | some b => rw [(isFirstNewest_of_newest? hbest).unique h]

/-- Moments that dates of commits name are on the calendar. -/
theorem IsFirstNewest.isValid {commits : List Commit} {m : Moment}
    (h : IsFirstNewest (moments commits) m) : m.date.isValid := by
  obtain ⟨c, -, hdate⟩ := List.mem_filterMap.1 h.isNewest.1
  exact Moment.isValid_of_ofDate? hdate

/-- Whether a window of so many days starts on the calendar: the date of the newest moment
has more days up to it. -/
def StartsOnCalendar (days : Int) (commits : List Commit) : Prop :=
  ∀ m, IsFirstNewest (moments commits) m → days < m.date.ordinal

instance (days : Int) (commits : List Commit) : Decidable (StartsOnCalendar days commits) :=
  decidable_of_iff (∀ m ∈ newest? (moments commits), days < m.date.ordinal)
    (forall_congr' fun _ => imp_congr_left newest?_eq_some_iff)

/-- A window that starts on the calendar holds the latest ones of the commits
that are recent enough. -/
theorem window_of_startsOnCalendar {s : CouplingSettings} (hdays : 0 < s.windowDays)
    {commits : List Commit} (h : StartsOnCalendar s.windowDays commits) :
    window s commits =
      .ok (upTo s.maxCommits (latestFirst (·.date) (recentOf s.windowDays commits))) := by
  have hdefined : ∃ recent, window s commits = .ok recent := by
    cases hbest : newest? (commits.filterMap fun c => Moment.ofDate? c.date) with
    | none =>
      rw [window, hbest]
      exact ⟨_, rfl⟩
    | some m =>
      have hm : IsFirstNewest (moments commits) m := newest?_eq_some_iff.1 hbest
      exact ⟨_, window_of_newest hbest (Moment.daysBefore_of_lt hm.isValid hdays (h m hm))⟩
  obtain ⟨recent, hrecent⟩ := hdefined
  rw [hrecent, window_eq hrecent]

/-- A window that does not start on the calendar is none. -/
theorem window_of_not_startsOnCalendar {s : CouplingSettings} (hdays : 0 < s.windowDays)
    {commits : List Commit} (h : ¬StartsOnCalendar s.windowDays commits) :
    window s commits = .error (Moment.faultBefore s.windowDays) := by
  unfold StartsOnCalendar at h
  simp only [not_forall] at h
  obtain ⟨m, hm, hearly⟩ := h
  have hbest : newest? (commits.filterMap fun c => Moment.ofDate? c.date) = some m :=
    newest?_eq_some_iff.2 hm
  have hfault : m.daysBefore s.windowDays = .error (Moment.faultBefore s.windowDays) :=
    Moment.daysBefore_of_le hdays (Int.not_lt.1 hearly)
  rw [window, hbest]
  simp only [hfault]
  rfl

/-- A commit on the first day of the calendar is too early for every window. -/
theorem not_startsOnCalendar_first_day {days : Int} (h : 0 < days) :
    ¬StartsOnCalendar days [{ date := "0001-01-01" }] := by
  intro hstarts
  have hmoments : moments [{ date := "0001-01-01" }] = [{ date := ⟨1, 1, 1⟩ }] := by decide +kernel
  have hfirst : IsFirstNewest (moments [{ date := "0001-01-01" }]) { date := ⟨1, 1, 1⟩ } := by
    rw [hmoments]
    exact ⟨[], [], rfl, fun n hn => absurd hn List.not_mem_nil,
      fun n hn => absurd hn List.not_mem_nil⟩
  have hordinal : (Calendar.Date.mk 1 1 1).ordinal = 1 := by decide
  have hdays := hstarts _ hfirst
  rw [hordinal] at hdays
  omega

/-- **When commits couple files.** With settings in their ranges, the commits have couplings
exactly if the window starts on the calendar, whatever their dates are; otherwise they fail
in a way that the days of the window decide. No settings exclude that: some commits are too
early for any window. -/
theorem commitCouplings_defined {s : Settings} (hs : s.InRange) (commits : List Commit) :
    (StartsOnCalendar s.coupling.windowDays commits →
        ∃ pairs, commitCouplings s.coupling commits = .ok pairs) ∧
      (¬StartsOnCalendar s.coupling.windowDays commits →
        commitCouplings s.coupling commits = .error (Moment.faultBefore s.coupling.windowDays)) ∧
      ∃ early, ¬StartsOnCalendar s.coupling.windowDays early := by
  have hdays := hs.coupling.windowDays
  refine ⟨fun h => ?_, fun h => ?_, _, not_startsOnCalendar_first_day hdays⟩
  · rw [commitCouplings, window_of_startsOnCalendar hdays h]
    exact ⟨_, rfl⟩
  · rw [commitCouplings, window_of_not_startsOnCalendar hdays h]
    rfl

/-- With a window of forty days, a date that cannot be read does not keep a commit of this century
from its couplings, and a commit of the first of February of year 1 is too early. -/
theorem commitCouplings_defined_of_forty_days :
    let readable : List Commit := [{ date := "yesterday" }, { date := "2024-05-02T12:00:00+02:00" }]
    let early : List Commit := [{ date := "yesterday" }, { date := "0001-02-01T01:00:00+05:00" }]
    ∃ s, Settings.ofText Yaml.load Settings.fileName "coupling:\n  window_days: 40\n" =
      .ok s ∧ s.InRange ∧ (∃ pairs, commitCouplings s.coupling readable = .ok pairs) ∧
      commitCouplings s.coupling early = .error .dateOutOfRange := by
  intro readable early
  have hread : ((Settings.ofText Yaml.load Settings.fileName
      "coupling:\n  window_days: 40\n").toOption.map fun s =>
      s.coupling.windowDays) = some 40 := by decide +kernel
  obtain ⟨s, hs, hdays⟩ := Outcome.exists_ok_of_toOption_map hread
  have hreadable : StartsOnCalendar s.coupling.windowDays readable := by
    rw [hdays]
    decide +kernel
  have hearly : ¬StartsOnCalendar s.coupling.windowDays early := by
    rw [hdays]
    decide +kernel
  have hrange := Settings.ofText_inRange hs
  have hfails := (commitCouplings_defined hrange early).2.1 hearly
  rw [hdays] at hfails
  exact ⟨s, hs, hrange, (commitCouplings_defined hrange readable).1 hreadable, hfails⟩

/-- **An endless window couples nothing.** Settings may ask for a window of a million days, and with
these two commits of this century that change the same files do not couple them. -/
theorem commitCouplings_of_endless_window :
    let commits : List Commit :=
      [{ date := "2024-05-02T10:00:00Z", changed := ["x.ts", "y.ts"] },
        { date := "2024-05-01T10:00:00Z", changed := ["x.ts", "y.ts"] }]
    ∃ s, Settings.ofText Yaml.load Settings.fileName "coupling:\n  window_days: 1000000\n" = .ok s ∧
      commitCouplings s.coupling commits = .error .dateOutOfRange := by
  intro commits
  have hread : ((Settings.ofText Yaml.load Settings.fileName
      "coupling:\n  window_days: 1000000\n").toOption.map fun s =>
      s.coupling.windowDays) = some 1000000 := by decide +kernel
  obtain ⟨s, hs, hdays⟩ := Outcome.exists_ok_of_toOption_map hread
  have hearly : ¬StartsOnCalendar s.coupling.windowDays commits := by
    rw [hdays]
    decide +kernel
  have hwindow := window_of_not_startsOnCalendar
    (Settings.ofText_inRange hs).coupling.windowDays hearly
  refine ⟨s, hs, ?_⟩
  rw [commitCouplings, hwindow, hdays]
  rfl

end Coupling
end CodeSurvey
