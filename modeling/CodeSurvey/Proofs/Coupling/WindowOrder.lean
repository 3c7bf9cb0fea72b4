/-
# What the window holds

A commit is recent unless its date names an instant that lies more than the days of the window
before the newest instant that some commit names (`isRecent`). Where the window starts on the
calendar it holds the recent commits, the latest ones first and equally late ones in their order,
as many as the limit allows; so no commit that the limit cuts off is later than one that it
leaves (`window_exact`).

The dates count by the instants that they name. Commits whose dates name the same instants
by other clocks, or in another spelling, have the same places in the window
(`latestFirst_map`, `isRecent_map`), provided that it still starts on the calendar, which
the clock of the newest date decides.
-/

import CodeSurvey.Proofs.Coupling.WindowStart
import CodeSurvey.Proofs.Sorting

namespace CodeSurvey
namespace Coupling

/-- The instant that the date of a commit names, if it can be read. -/
def instant? (c : Commit) : Option Int := (Moment.ofDate? c.date).map Moment.instant

/-- Whether a commit is at most so many days older than the newest instant that some commits name.
Where its own date cannot be read, or no date can, it counts as such. -/
def isRecent (days : Int) (commits : List Commit) (c : Commit) : Bool :=
  match instant? c, (commits.filterMap instant?).max? with
  | some i, some newest => newest - days * Moment.dayMicros ≤ i
  | _, _ => true

theorem commitInstant_date (c : Commit) :
    commitInstant c.date = (instant? c).getD Moment.earliest := by
  unfold commitInstant instant?
  cases Moment.ofDate? c.date <;> rfl

/-- The instants of commits are those of their moments. -/
theorem filterMap_instant? (commits : List Commit) :
    commits.filterMap instant? = (moments commits).map Moment.instant :=
  List.map_filterMap.symm

theorem max?_of_isNewest {ms : List Moment} {m : Moment} (h : IsNewest ms (some m)) :
    (ms.map Moment.instant).max? = some m.instant := by
  refine List.max?_eq_some_iff.2 ⟨List.mem_map_of_mem h.1, fun i hi => ?_⟩
  obtain ⟨n, hn, rfl⟩ := List.mem_map.1 hi
  exact h.2 n hn

/-- The commits that are not too much older than any other are those that are recent. -/
theorem recentOf_eq (days : Int) (commits : List Commit) :
    recentOf days commits = commits.filter (isRecent days commits) := by
  refine List.filter_congr fun c hc => ?_
  have hnewest := newest?_isNewest (moments commits)
  cases hbest : newest? (moments commits) with
  | none =>
    rw [hbest] at hnewest
    have hunread : Moment.ofDate? c.date = none := List.filterMap_eq_nil_iff.1 hnewest c hc
    have hall : commits.all (withinDays days c) = true :=
      List.all_eq_true.2 fun d _ => by rw [withinDays, hunread]
    rw [hall, isRecent, instant?, hunread]
    rfl
  | some b =>
    rw [hbest] at hnewest
    rw [← inWindow_newest hnewest, isRecent, filterMap_instant?, max?_of_isNewest hnewest,
      instant?, inWindow]
    cases Moment.ofDate? c.date <;> rfl

/-- Commits in the order of their instants stay in it when other commits name the same
instants in their places. -/
theorem latestFirst_map {f : Commit → Commit} {commits : List Commit}
    (h : ∀ c ∈ commits, instant? (f c) = instant? c) :
    latestFirst (·.date) (commits.map f) = (latestFirst (·.date) commits).map f := by
  refine (List.map_mergeSort fun c hc d hd => ?_).symm
  rw [commitInstant_date, commitInstant_date, commitInstant_date, commitInstant_date,
    h c hc, h d hd]

/-- The recent commits stay recent when other commits name the same instants in their places. -/
theorem isRecent_map (days : Int) {f : Commit → Commit} {commits : List Commit}
    (h : ∀ c ∈ commits, instant? (f c) = instant? c) :
    (commits.map f).filter (isRecent days (commits.map f)) =
      (commits.filter (isRecent days commits)).map f := by
  have hinstants : (commits.map f).filterMap instant? = commits.filterMap instant? := by
    rw [List.filterMap_map]
    exact List.filterMap_congr h
  rw [List.filter_map]
  refine congrArg (List.map f) (List.filter_congr fun c hc => ?_)
  rw [Function.comp_apply, isRecent, isRecent, hinstants, h c hc]

/-- **The window is exact.** With positive limits, and where it starts on the calendar, it holds the
first of the recent commits by their instants, the latest first and equally late ones in their
order, as many as the limit allows, and no commit that the limit cuts off is later than one that it
leaves. Nothing but the instants matters: commits that name the same ones, whatever their clocks,
are in the same places of the window if that starts on the calendar too. -/
theorem window_exact {s : CouplingSettings} (hdays : 0 < s.windowDays) (hlimit : 0 < s.maxCommits)
    {commits : List Commit} (hstart : StartsOnCalendar s.windowDays commits) :
    ∃ latest, SortedDown (fun c => commitInstant c.date)
      (commits.filter (isRecent s.windowDays commits)) latest ∧
      window s commits = .ok (latest.take s.maxCommits.toNat) ∧
      (∀ kept ∈ latest.take s.maxCommits.toNat, ∀ cut ∈ latest.drop s.maxCommits.toNat,
        commitInstant cut.date ≤ commitInstant kept.date) ∧
      ∀ f : Commit → Commit, (∀ c ∈ commits, instant? (f c) = instant? c) →
        StartsOnCalendar s.windowDays (commits.map f) →
          window s (commits.map f) = .ok ((latest.take s.maxCommits.toNat).map f) := by
  have hwindow : ∀ {cs : List Commit}, StartsOnCalendar s.windowDays cs → window s cs =
      .ok ((latestFirst (·.date) (cs.filter (isRecent s.windowDays cs))).take
        s.maxCommits.toNat) := by
    intro cs hcs
    rw [window_of_startsOnCalendar hdays hcs, recentOf_eq, upTo_of_nonneg (Int.le_of_lt hlimit)]
  have hsorted := sortedDown_mergeSort (fun c : Commit => commitInstant c.date)
    (commits.filter (isRecent s.windowDays commits))
  refine ⟨_, hsorted, hwindow hstart, hsorted.le_of_take_of_drop _, fun f hf hstart' => ?_⟩
  have hrecent : ∀ c ∈ commits.filter (isRecent s.windowDays commits),
      instant? (f c) = instant? c :=
    fun c hc => hf c (List.mem_filter.1 hc).1
  rw [hwindow hstart', isRecent_map s.windowDays hf, latestFirst_map hrecent, ← List.map_take]
  rfl

/-- Of four commits one has no date that can be read, two name one instant by different clocks, and
one is too old. The window holds two of the three recent ones, and holds them still if the instant
is spelled in one way. -/
theorem window_exact_of_four_commits :
    let s : CouplingSettings := { maxCommits := 2 }
    let undated : Commit := { sha := "1", date := "yesterday" }
    let zoned : Commit := { sha := "2", date := "2024-05-02T12:00:00+02:00" }
    let zulu : Commit := { sha := "3", date := "2024-05-02T10:00:00Z" }
    let old : Commit := { sha := "4", date := "2024-03-02T10:00:00Z" }
    let respelled : Commit → Commit :=
      fun c => if c = zoned then { zoned with date := zulu.date } else c
    0 < s.windowDays ∧ 0 < s.maxCommits ∧
      StartsOnCalendar s.windowDays [undated, zoned, zulu, old] ∧
      ∃ latest, SortedDown (fun c => commitInstant c.date) [undated, zoned, zulu] latest ∧
        window s [undated, zoned, zulu, old] = .ok (latest.take 2) ∧
        window s ([undated, zoned, zulu, old].map respelled) =
          .ok ((latest.take 2).map respelled) := by
  intro s undated zoned zulu old respelled
  have hdays : 0 < s.windowDays := by decide
  have hlimit : 0 < s.maxCommits := by decide
  have hstart : StartsOnCalendar s.windowDays [undated, zoned, zulu, old] := by decide +kernel
  have hstart' : StartsOnCalendar s.windowDays ([undated, zoned, zulu, old].map respelled) := by
    decide +kernel
  have hinstants : ∀ c ∈ [undated, zoned, zulu, old], instant? (respelled c) = instant? c := by
    decide +kernel
  have hrecent : [undated, zoned, zulu, old].filter
      (isRecent s.windowDays [undated, zoned, zulu, old]) =
      [undated, zoned, zulu] := by decide +kernel
  obtain ⟨latest, hsorted, hwindow, -, hrespelled⟩ := window_exact hdays hlimit hstart
  rw [hrecent] at hsorted
  exact ⟨hdays, hlimit, hstart, latest, hsorted, hwindow, hrespelled respelled hinstants hstart'⟩

end Coupling
end CodeSurvey
