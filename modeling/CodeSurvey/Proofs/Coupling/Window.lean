/-
# The window of commits

The commits that count are those that are not too many days older than any other, as far as their
dates can be read, the latest ones first, and of these as many as the limit leaves (`window_eq`).
That the days are counted back from the newest date alone makes no difference, as the newest date is
the one that is hardest to keep up with (`newest?_isNewest`).
-/

import CodeSurvey.Coupling.Commits
import Mathlib.Data.List.Basic
import Mathlib.Data.List.Induction

namespace CodeSurvey
namespace Coupling

/-- Whether a moment is a newest one among some; there is none only if there is no moment. -/
def IsNewest (ms : List Moment) : Option Moment → Prop
  | none => ms = []
  | some b => b ∈ ms ∧ ∀ m ∈ ms, m.instant ≤ b.instant

theorem newest?_isNewest (ms : List Moment) : IsNewest ms (newest? ms) := by
  induction ms using List.reverseRecOn with
  | nil => exact rfl
  | append_singleton ms m ih =>
    have hlast : m ∈ ms ++ [m] := List.mem_append_right _ (List.mem_singleton_self m)
    rw [newest?, List.foldl_concat, ← newest?]
    cases hbest : newest? ms with
    | none =>
      rw [hbest] at ih
      have hnil : ms = [] := ih
      subst hnil
      exact ⟨hlast, fun n hn => Int.le_of_eq (congrArg Moment.instant (List.mem_singleton.1 hn))⟩
    | some b =>
      rw [hbest] at ih
      obtain ⟨hmem, hnewest⟩ := ih
      by_cases hlater : b.instant < m.instant
      · simp only [hlater, if_true]
        refine ⟨hlast, fun n hn => ?_⟩
        rcases List.mem_append.1 hn with hn | hn
        · exact Int.le_trans (hnewest n hn) (Int.le_of_lt hlater)
        · exact Int.le_of_eq (congrArg Moment.instant (List.mem_singleton.1 hn))
      · simp only [hlater, if_false]
        refine ⟨List.mem_append_left _ hmem, fun n hn => ?_⟩
        rcases List.mem_append.1 hn with hn | hn
        · exact hnewest n hn
        · rw [List.mem_singleton.1 hn]
          exact Int.not_lt.1 hlater

/-- Whether a commit is at most so many days older than another one; it is where one of the
dates cannot be read. -/
def withinDays (days : Int) (c d : Commit) : Bool :=
  match Moment.ofDate? c.date, Moment.ofDate? d.date with
  | some m, some n => n.instant - days * Moment.dayMicros ≤ m.instant
  | _, _ => true

/-- The commits among some that are at most so many days older than any of them. -/
def recentOf (days : Int) (commits : List Commit) : List Commit :=
  commits.filter fun c => commits.all (withinDays days c)

theorem daysBefore_eq {m : Moment} {days cutoff : Int} (h : m.daysBefore days = .ok cutoff) :
    cutoff = m.instant - days * Moment.dayMicros := by
  unfold Moment.daysBefore at h
  cases hdays : Moment.checkDays days with
  | error e =>
    rw [hdays] at h
    cases h
  | ok _ =>
    rw [hdays] at h
    simp only [Except.bind, bind, pure, Except.pure] at h
    split at h
    · cases h
    · exact (Except.ok.inj h).symm

/-- The days before the newest date among some commits hold the commits that are not
too much older than any. -/
theorem inWindow_newest {days : Int} {commits : List Commit} {b : Moment}
    (h : IsNewest (commits.filterMap fun c => Moment.ofDate? c.date) (some b)) (c : Commit) :
    inWindow (b.instant - days * Moment.dayMicros) c = commits.all (withinDays days c) := by
  obtain ⟨hmem, hbound⟩ := h
  rw [Bool.eq_iff_iff, List.all_eq_true, inWindow]
  simp only [withinDays]
  cases Moment.ofDate? c.date with
  | none => simp
  | some m =>
    obtain ⟨e, he, hb⟩ := List.mem_filterMap.1 hmem
    simp only [decide_eq_true_eq]
    constructor
    · intro hcutoff d hd
      cases hdate : Moment.ofDate? d.date with
      | none => rfl
      | some n =>
        have hn := hbound n (List.mem_filterMap.2 ⟨d, hd, hdate⟩)
        exact decide_eq_true (by omega)
    · intro hall
      have hnewest := hall e he
      rw [hb] at hnewest
      exact of_decide_eq_true hnewest

/-- Where some date can be read, the window holds the latest commits since the days
before the newest date. -/
theorem window_of_newest {s : CouplingSettings} {commits : List Commit} {b : Moment} {cutoff : Int}
    (hbest : newest? (commits.filterMap fun c => Moment.ofDate? c.date) = some b)
    (hcutoff : b.daysBefore s.windowDays = .ok cutoff) :
    window s commits =
      .ok (upTo s.maxCommits (latestFirst (·.date) (commits.filter (inWindow cutoff)))) := by
  rw [window, hbest]
  simp only [hcutoff]
  rfl

/-- **The window.** Of the commits that are at most so many days older than any other, it holds the
latest ones, as many as the limit leaves. -/
theorem window_eq {s : CouplingSettings} {commits recent : List Commit}
    (h : window s commits = .ok recent) :
    recent = upTo s.maxCommits (latestFirst (·.date) (recentOf s.windowDays commits)) := by
  have hnewest := newest?_isNewest (commits.filterMap fun c => Moment.ofDate? c.date)
  cases hbest : newest? (commits.filterMap fun c => Moment.ofDate? c.date) with
  | none =>
    rw [window, hbest] at h
    rw [hbest] at hnewest
    have hall : recentOf s.windowDays commits = commits := by
      refine List.filter_eq_self.2 fun c hc => List.all_eq_true.2 fun d _ => ?_
      have hundated := List.filterMap_eq_nil_iff.1 hnewest c hc
      rw [withinDays, hundated]
    rw [hall]
    exact (Except.ok.inj h).symm
  | some b =>
    rw [hbest] at hnewest
    cases hcutoff : b.daysBefore s.windowDays with
    | error e =>
      rw [window, hbest] at h
      simp only [hcutoff] at h
      cases h
    | ok cutoff =>
      have hrecent : recentOf s.windowDays commits = commits.filter (inWindow cutoff) := by
        rw [daysBefore_eq hcutoff]
        exact List.filter_congr fun c _ => (inWindow_newest hnewest c).symm
      rw [window_of_newest hbest hcutoff] at h
      rw [hrecent]
      exact (Except.ok.inj h).symm

end Coupling
end CodeSurvey
