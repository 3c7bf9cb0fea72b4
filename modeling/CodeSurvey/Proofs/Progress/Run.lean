/-
# Runs of a tracker

A run is any sequence of calls. A call either is refused, for a stage that is unknown or a progress
that is no number, and then changes nothing; or it stores what is reported and aggregates the stages
(`call_cases`). From this follows what every call preserves (`Consistent.step`) and so every run
(`Consistent.runOf`): the announced percentages increase, and the last of them is the greatest
aggregate so far. The stages of a run have their latest reports (`stages_runOf`).
-/

import CodeSurvey.Proofs.Keyed
import CodeSurvey.Proofs.Progress.Aggregate

namespace CodeSurvey
namespace Tracker

/-- A call of a tracker. -/
inductive Call
  | update (stage label : String) (amount : Amount)
  | complete (stage label : String)

/-- The stage that a call is about. -/
def Call.stage : Call → String
  | update stage _ _ => stage
  | complete stage _ => stage

/-- The label of a call. -/
def Call.label : Call → String
  | update _ label _ => label
  | complete _ label => label

/-- The progress that a call reports. -/
def Call.amount : Call → Amount
  | update _ _ amount => amount
  | complete _ _ => .int 100

/-- What a call makes of a tracker, what is announced, and what the call gives. -/
def call (t : Tracker) : Call → Tracker × Option Announcement × Except Failure Int
  | .update stage label amount => t.update stage label amount
  | .complete stage label => t.complete stage label

/-- What a call gives where a listener is told what is announced, and may fail. -/
def outcome (listener : Announcement → Option Failure) (t : Tracker) (c : Call) :
    Except Failure Int :=
  match (t.call c).2.1.bind listener with
  | some f => .error f
  | none => (t.call c).2.2

/-- A call that announces nothing gives what it gives. -/
theorem outcome_of_silent {listener : Announcement → Option Failure} {t after : Tracker} {c : Call}
    {o : Except Failure Int} (h : t.call c = (after, none, o)) : outcome listener t c = o := by
  rw [outcome, h]
  rfl

/-- A call that announces something gives what it gives, unless the listener fails. -/
theorem outcome_of_told {listener : Announcement → Option Failure} {t after : Tracker} {c : Call}
    {a : Announcement} {o : Except Failure Int} (h : t.call c = (after, some a, o)) :
    outcome listener t c = match listener a with
      | some f => .error f
      | none => o := by
  rw [outcome, h]
  rfl

/-- The stages after a call reports, if their stage is known and the progress is a number. -/
def reported? (t : Tracker) (c : Call) : Option (List StageProgress) :=
  if t.stages.any (·.name == c.stage) then
    c.amount.toBinary64.toOption.map fun x => report c.stage x.clampPercent t.stages
  else none

/-- The aggregate that a call computes, if it comes to that. -/
def computed? (t : Tracker) (c : Call) : Option Int :=
  (reported? t c).bind fun stages => (aggregate stages).toOption

/-- **What a call does.** It is refused and changes nothing; or it stores the report, and then fails
to aggregate the stages, or announces nothing, or announces the aggregate. -/
theorem call_cases (t : Tracker) (c : Call) :
    (reported? t c = none ∧ ∃ f, t.call c = (t, none, .error f)) ∨
      ∃ stages, reported? t c = some stages ∧
        ((∃ f, aggregate stages = .error f ∧ t.call c = (⟨stages, t.last⟩, none, .error f)) ∨
          ∃ n, aggregate stages = .ok n ∧
            ((n ≤ t.last ∧ t.call c = (⟨stages, t.last⟩, none, .ok t.last)) ∨
              (t.last < n ∧ t.call c = (⟨stages, n⟩, some ⟨c.label, n⟩, .ok n)))) := by
  have hcall : t.call c = t.update c.stage c.label c.amount := by cases c <;> rfl
  rw [hcall, reported?, update]
  cases hknown : t.stages.any (·.name == c.stage) with
  | false => exact .inl ⟨rfl, _, rfl⟩
  | true =>
    cases hamount : c.amount.toBinary64 with
    | error f => exact .inl ⟨rfl, f, rfl⟩
    | ok x =>
      refine .inr ⟨_, rfl, ?_⟩
      cases haggregate : aggregate (report c.stage x.clampPercent t.stages) with
      | error f =>
        simp only [haggregate]
        exact .inl ⟨f, rfl, rfl⟩
      | ok n =>
        refine .inr ⟨n, rfl, ?_⟩
        by_cases hlast : t.last < n
        · exact .inr ⟨hlast, by simp [haggregate, hlast]⟩
        · exact .inl ⟨Int.not_lt.1 hlast, by simp [haggregate, hlast]⟩

/-- What a run of calls has come to: the tracker, what was announced, and what was
aggregated, in order. -/
structure Run where
  tracker : Tracker
  announced : List Announcement := []
  aggregates : List Int := []

/-- One more call. -/
def Run.step (r : Run) (c : Call) : Run where
  tracker := (r.tracker.call c).1
  announced := r.announced ++ (r.tracker.call c).2.1.toList
  aggregates := r.aggregates ++ (computed? r.tracker c).toList

/-- A run of calls from a tracker. -/
def runOf (t : Tracker) (calls : List Call) : Run := calls.foldl Run.step { tracker := t }

theorem runOf_concat (t : Tracker) (calls : List Call) (c : Call) :
    runOf t (calls ++ [c]) = (runOf t calls).step c := List.foldl_concat ..

/-- **What a call does to a run.** It changes nothing; or it stores the report, and then
aggregates nothing, or adds an aggregate that is not above the last percentage announced, or
announces the aggregate. -/
theorem Run.step_cases (r : Run) (c : Call) :
    (reported? r.tracker c = none ∧ r.step c = r) ∨
      ∃ stages, reported? r.tracker c = some stages ∧
        (((∃ f, aggregate stages = .error f) ∧
          r.step c = { r with tracker := ⟨stages, r.tracker.last⟩ }) ∨
          ∃ n, aggregate stages = .ok n ∧
            ((n ≤ r.tracker.last ∧ r.step c =
                { r with tracker := ⟨stages, r.tracker.last⟩, aggregates := r.aggregates ++ [n] }) ∨
              (r.tracker.last < n ∧ r.step c =
                { tracker := ⟨stages, n⟩
                  announced := r.announced ++ [⟨c.label, n⟩]
                  aggregates := r.aggregates ++ [n] }))) := by
  rcases call_cases r.tracker c with ⟨hnone, f, hcall⟩ | ⟨stages, hsome, hcases⟩
  · refine .inl ⟨hnone, ?_⟩
    simp [step, computed?, hnone, hcall]
  · refine .inr ⟨stages, hsome, ?_⟩
    rcases hcases with ⟨f, hf, hcall⟩ | ⟨n, hn, ⟨hle, hcall⟩ | ⟨hlt, hcall⟩⟩
    · refine .inl ⟨⟨f, hf⟩, ?_⟩
      simp [step, computed?, hsome, hf, hcall, Except.toOption]
    · refine .inr ⟨n, hn, .inl ⟨hle, ?_⟩⟩
      simp [step, computed?, hsome, hn, hcall, Except.toOption]
    · refine .inr ⟨n, hn, .inr ⟨hlt, ?_⟩⟩
      simp [step, computed?, hsome, hn, hcall, Except.toOption]

/-- Whether the announced percentages of a run increase and are positive, and the last percentage
announced is the greatest of the aggregates, or zero. -/
structure Consistent (r : Run) : Prop where
  increasing : (r.announced.map (·.percent)).Pairwise (· < ·)
  positive : ∀ a ∈ r.announced, 0 < a.percent
  announced_le_last : ∀ a ∈ r.announced, a.percent ≤ r.tracker.last
  last_eq : r.tracker.last = r.aggregates.foldl max 0

theorem foldl_max_concat (ns : List Int) (n : Int) :
    (ns ++ [n]).foldl max 0 = max (ns.foldl max 0) n :=
  List.foldl_concat ..

theorem zero_le_foldl_max (ns : List Int) : 0 ≤ ns.foldl max 0 := by
  induction ns using List.reverseRecOn with
  | nil => exact Int.le_refl 0
  | append_singleton ns n ih =>
    rw [foldl_max_concat]
    omega

/-- Every call keeps a run consistent. -/
theorem Consistent.step {r : Run} (h : Consistent r) (c : Call) : Consistent (r.step c) := by
  obtain ⟨hincreasing, hpositive, hle, hlast⟩ := h
  rcases r.step_cases c with ⟨-, hstep⟩ | ⟨stages, -,
      ⟨-, hstep⟩ | ⟨n, -, ⟨hn, hstep⟩ | ⟨hn, hstep⟩⟩⟩
  · rw [hstep]
    exact ⟨hincreasing, hpositive, hle, hlast⟩
  · rw [hstep]
    exact ⟨hincreasing, hpositive, hle, hlast⟩
  · rw [hstep]
    refine ⟨hincreasing, hpositive, hle, ?_⟩
    show r.tracker.last = (r.aggregates ++ [n]).foldl max 0
    rw [foldl_max_concat, ← hlast, Int.max_eq_left hn]
  · rw [hstep]
    have hpos := zero_le_foldl_max r.aggregates
    refine ⟨?_, fun a ha => ?_, fun a ha => ?_, ?_⟩
    · show ((r.announced ++ [Announcement.mk c.label n]).map Announcement.percent).Pairwise (· < ·)
      rw [List.map_append, List.pairwise_append]
      refine ⟨hincreasing, List.pairwise_singleton _ _, fun p hp q hq => ?_⟩
      obtain ⟨a, ha, rfl⟩ := List.mem_map.1 hp
      rw [List.mem_singleton.1 hq]
      exact Int.lt_of_le_of_lt (hle a ha) hn
    · rcases List.mem_append.1 ha with ha | ha
      · exact hpositive a ha
      · rw [List.mem_singleton.1 ha]
        show 0 < n
        omega
    · rcases List.mem_append.1 ha with ha | ha
      · exact Int.le_of_lt (Int.lt_of_le_of_lt (hle a ha) hn)
      · rw [List.mem_singleton.1 ha]
    · show n = (r.aggregates ++ [n]).foldl max 0
      rw [foldl_max_concat, ← hlast, Int.max_eq_right (Int.le_of_lt hn)]

/-- Every run from a tracker that has announced nothing is consistent. -/
theorem Consistent.runOf {t : Tracker} (h : t.last = 0) (calls : List Call) :
    Consistent (runOf t calls) := by
  induction calls using List.reverseRecOn with
  | nil => exact ⟨List.Pairwise.nil, by simp [Tracker.runOf], by simp [Tracker.runOf], h⟩
  | append_singleton calls c ih =>
    rw [runOf_concat]
    exact ih.step c

/-- The latest report of a stage that is a number. -/
def latestReport? (calls : List Call) (stage : String) : Option Binary64 :=
  (calls.filterMap fun c => if c.stage == stage then c.amount.toBinary64.toOption
    else none).getLast?

/-- How much of a stage is done after some calls: what its latest report is kept to, or nothing. -/
def doneAfter (calls : List Call) (stage : String) : Binary64 :=
  match latestReport? calls stage with
  | some x => x.clampPercent
  | none => Binary64.zero

theorem latestReport?_concat (calls : List Call) (c : Call) (stage : String) :
    latestReport? (calls ++ [c]) stage =
      if c.stage == stage then c.amount.toBinary64.toOption.or (latestReport? calls stage)
      else latestReport? calls stage := by
  rw [latestReport?, List.filterMap_append, latestReport?]
  by_cases h : c.stage = stage
  · cases hamount : c.amount.toBinary64.toOption <;> simp [h, hamount]
  · simp [h]

theorem doneAfter_isPercent (calls : List Call) (stage : String) :
    IsPercent (doneAfter calls stage) := by
  unfold doneAfter
  split
  · exact clampPercent_isPercent _
  · exact isPercent_zero

/-- Stages with their weights after some calls. -/
def stagesAfter (weights : List (String × Int)) (calls : List Call) : List StageProgress :=
  weights.map fun w => ⟨w.1, w.2, doneAfter calls w.1⟩

/-- A call that reports stores the report, and one that does not leaves the stages as they are. -/
theorem stagesAfter_concat {t : Tracker} {weights : List (String × Int)} {calls : List Call}
    (h : t.stages = stagesAfter weights calls) (c : Call) :
    stagesAfter weights (calls ++ [c]) = (reported? t c).getD t.stages := by
  have hother : ∀ w ∈ weights, (c.stage = w.1 → c.amount.toBinary64.toOption = none) →
      doneAfter (calls ++ [c]) w.1 = doneAfter calls w.1 := by
    intro w _ hw
    rw [doneAfter, latestReport?_concat, doneAfter]
    by_cases he : c.stage = w.1
    · simp [he, hw he]
    · simp [he]
  rw [reported?]
  split_ifs with hknown
  · cases hamount : c.amount.toBinary64.toOption with
    | none =>
      rw [Option.map_none, Option.getD_none, h]
      exact List.map_congr_left fun w hw => by rw [hother w hw fun _ => hamount]
    | some x =>
      rw [Option.map_some, Option.getD_some, h, report, stagesAfter, stagesAfter, List.map_map]
      refine List.map_congr_left fun w hw => ?_
      by_cases he : w.1 = c.stage
      · have hdone : doneAfter (calls ++ [c]) w.1 = x.clampPercent := by
          rw [doneAfter, latestReport?_concat]
          simp [he, hamount]
        simp [he, ← hdone]
      · rw [hother w hw fun hc => absurd hc.symm he]
        simp [he]
  · rw [Option.getD_none, h]
    refine List.map_congr_left fun w hw => ?_
    rw [hother w hw fun hc => absurd ?_ hknown]
    rw [h, List.any_eq_true]
    exact ⟨_, List.mem_map_of_mem hw, beq_iff_eq.2 hc.symm⟩

/-- **What a run stores.** Each stage has its latest report. -/
theorem stages_runOf {t : Tracker} {weights : List (String × Int)}
    (h : t.stages = stagesAfter weights []) (calls : List Call) :
    (runOf t calls).tracker.stages = stagesAfter weights calls := by
  induction calls using List.reverseRecOn with
  | nil => exact h
  | append_singleton calls c ih =>
    rw [runOf_concat, stagesAfter_concat ih c]
    rcases (runOf t calls).step_cases c with ⟨hnone, hstep⟩ | ⟨stages, hsome, hcases⟩
    · rw [hstep, hnone, Option.getD_none]
    · rw [hsome, Option.getD_some]
      rcases hcases with ⟨-, hstep⟩ | ⟨n, -, ⟨-, hstep⟩ | ⟨-, hstep⟩⟩ <;> rw [hstep]

theorem absoluteWeight_stagesAfter (weights : List (String × Int)) (calls : List Call) :
    absoluteWeight (stagesAfter weights calls) = total (weights.map (·.2.natAbs)) := by
  rw [absoluteWeight, stagesAfter, List.map_map]
  rfl

theorem isPercent_of_mem_stagesAfter {weights : List (String × Int)} {calls : List Call}
    {s : StageProgress} (h : s ∈ stagesAfter weights calls) : IsPercent s.current := by
  obtain ⟨w, -, rfl⟩ := List.mem_map.1 h
  exact doneAfter_isPercent calls w.1

end Tracker
end CodeSurvey
