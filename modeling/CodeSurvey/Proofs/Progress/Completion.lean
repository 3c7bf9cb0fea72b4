/-
# The last stage of a survey

The last stage of a survey reports three parts before it is done (`finalParts`). Of its weight of
fifteen the greatest of them makes less than thirteen, and the other stages weigh eighty-five
together, so until it is done nothing above 98 is announced, whatever the other stages report and in
whatever order (`last_of_unfinished`). When it is done after all others, one hundred is announced
(`announced_of_completed`).
-/

import CodeSurvey.Proofs.Progress.Run

namespace CodeSurvey

open Binary64 (unitsPerOne)

namespace Tracker

/-- The stage that a survey ends with. -/
def finalStage : String := "finalizing"

/-- What the last stage reports before it is done. -/
def finalParts : List Binary64 := [Binary64.ofInt 25, Binary64.ofInt 60, Binary64.ofInt 85]

/-- The reports of a stage that are numbers, in order. -/
def reportsIn (calls : List Call) (stage : String) : List Binary64 :=
  calls.filterMap fun c => if c.stage == stage then c.amount.toBinary64.toOption else none

/-- Whether the last stage is not done: no more than its parts is reported of it. -/
def Unfinished (calls : List Call) : Prop := ∀ x ∈ reportsIn calls finalStage, x ∈ finalParts

theorem reportsIn_append (calls more : List Call) (stage : String) :
    reportsIn (calls ++ more) stage = reportsIn calls stage ++ reportsIn more stage :=
      List.filterMap_append ..

/-- A survey that is not finished was not finished before. -/
theorem Unfinished.of_append {calls more : List Call} (h : Unfinished (calls ++ more)) :
    Unfinished calls :=
  fun x hx => h x (by rw [reportsIn_append]; exact List.mem_append_left _ hx)

/-- The share of the last stage while it is not done. -/
theorem shareBetween_of_part {x : Binary64} (h : x ∈ Binary64.zero :: finalParts) :
    ShareBetween 0 13 ⟨finalStage, 15, x.clampPercent⟩ := by
  have hweight := Binary64.ofInt?_of_isFinite (Binary64.ofInt_exact (k := 15) (by decide)).1
  have hparts : ∀ x ∈ Binary64.zero :: finalParts,
      (Binary64.ofInt 15 * (x.clampPercent / hundred)).isFinite ∧
        0 * unitsPerOne ≤ (Binary64.ofInt 15 * (x.clampPercent / hundred)).units ∧
        (Binary64.ofInt 15 * (x.clampPercent / hundred)).units ≤ 13 * unitsPerOne := by
          decide +kernel
  exact ⟨_, share_eq hweight, hparts x h⟩

/-- How much of the last stage is done while it is not finished. -/
theorem doneAfter_of_unfinished {calls : List Call} (h : Unfinished calls) :
    ∃ x ∈ Binary64.zero :: finalParts, doneAfter calls finalStage = x.clampPercent := by
  have hzero : Binary64.zero = Binary64.zero.clampPercent := by decide +kernel
  unfold doneAfter
  cases hlatest : latestReport? calls finalStage with
  | none => exact ⟨_, List.mem_cons_self .., hzero⟩
  | some x => exact ⟨x, List.mem_cons_of_mem _ (h x (List.mem_of_getLast? hlatest)), rfl⟩

/-- What the share of a stage is at most while the survey is not finished. -/
def unfinishedShare (name : String) (weight : Int) : Int := if name = finalStage then 13 else weight

/-- The share of a stage of a survey that is not finished. -/
theorem shareBetween_of_unfinished {calls : List Call} (h : Unfinished calls) {name : String}
    {weight : Int} (hw : (name, weight) ∈ surveyStages) :
    ShareBetween 0 (unfinishedShare name weight) ⟨name, weight, doneAfter calls name⟩ := by
  have hweights : ∀ w ∈ surveyStages, 0 ≤ w.2 ∧ w.2.natAbs ≤ 2 ^ 53 := by decide
  have hfinal : ∀ w ∈ surveyStages, w.1 = finalStage → w.2 = 15 := by decide
  unfold unfinishedShare
  split_ifs with hname
  · obtain ⟨x, hx, hdone⟩ := doneAfter_of_unfinished h
    obtain rfl : weight = 15 := hfinal _ hw hname
    rw [hname, hdone]
    exact shareBetween_of_part hx
  · obtain ⟨hnonneg, hsmall⟩ : 0 ≤ weight ∧ weight.natAbs ≤ 2 ^ 53 := hweights _ hw
    obtain ⟨hfinite, hlower, hupper⟩ := isPercent_iff.1 (doneAfter_isPercent calls name)
    rw [← Int.zero_mul hundred.units] at hlower
    rw [← Int.one_mul hundred.units] at hupper
    have hshare := shareBetween_of_current (s := ⟨name, weight, doneAfter calls name⟩) hsmall
      (.inl rfl) (.inr rfl)
      hfinite hlower hupper
    rwa [Int.mul_zero, Int.mul_one, Int.min_eq_left hnonneg, Int.max_eq_right hnonneg] at hshare

/-- The stages of a survey that is not finished add up to 98 at most. -/
theorem aggregate_of_unfinished {calls : List Call} (h : Unfinished calls) :
    ∃ n, aggregate (stagesAfter surveyStages calls) = .ok n ∧ n ≤ 98 := by
  let hi (s : StageProgress) : Int := unfinishedShare s.name s.weight
  have hweights : absoluteWeight (stagesAfter surveyStages calls) ≤ 2 ^ 53 := by
    rw [absoluteWeight_stagesAfter]
    decide
  have hbounds : ∀ w ∈ surveyStages, (unfinishedShare w.1 w.2).natAbs ≤ w.2.natAbs := by decide
  have hshares : ∀ s ∈ stagesAfter surveyStages calls, ShareBetween 0 (hi s) s := by
    intro s hs
    obtain ⟨w, hw, rfl⟩ := List.mem_map.1 hs
    exact shareBetween_of_unfinished h hw
  have hinWeight : ∀ s ∈ stagesAfter surveyStages calls,
      (0 : Int).natAbs ≤ s.weight.natAbs ∧ (hi s).natAbs ≤ s.weight.natAbs := by
    intro s hs
    obtain ⟨w, hw, rfl⟩ := List.mem_map.1 hs
    exact ⟨Nat.zero_le _, hbounds w hw⟩
  have htotal : total ((stagesAfter surveyStages calls).map hi) = 98 := by
    rw [stagesAfter, List.map_map]
    rfl
  obtain ⟨n, hn, -, hupper⟩ := aggregate_between hweights hshares hinWeight
  exact ⟨n, hn, htotal ▸ hupper⟩

/-- **Nothing above 98 is announced of a survey that is not finished.** -/
theorem last_of_unfinished {calls : List Call} (h : Unfinished calls) :
    (runOf initial calls).tracker.last ≤ 98 := by
  induction calls using List.reverseRecOn with
  | nil => decide
  | append_singleton calls c ih =>
    have hstages := stages_runOf (t := initial) rfl (calls ++ [c])
    rw [runOf_concat] at hstages ⊢
    obtain ⟨n, hn, hle⟩ := aggregate_of_unfinished h
    have hbefore := ih h.of_append
    rcases (runOf initial calls).step_cases c with ⟨-, hstep⟩ | ⟨stages, -,
        ⟨-, hstep⟩ | ⟨m, hm, hcases⟩⟩
    · rwa [hstep]
    · rwa [hstep]
    · rcases hcases with ⟨-, hstep⟩ | ⟨-, hstep⟩
      · rwa [hstep]
      rw [hstep] at hstages ⊢
      have hstages : stages = stagesAfter surveyStages (calls ++ [c]) := hstages
      rw [hstages, hn] at hm
      exact Except.ok.inj hm ▸ hle

/-- The stages of a survey that are all done add up to one hundred. -/
theorem aggregate_of_latest {calls : List Call}
    (h : ∀ w ∈ surveyStages, latestReport? calls w.1 = some hundred) :
    aggregate (stagesAfter surveyStages calls) = .ok 100 := by
  have hall : ∀ s ∈ stagesAfter surveyStages calls, s.current = hundred := by
    intro s hs
    obtain ⟨w, hw, rfl⟩ := List.mem_map.1 hs
    show doneAfter calls w.1 = hundred
    rw [doneAfter, h w hw]
    exact clampPercent_of_le isPercent_hundred.2
  have hsum : total ((stagesAfter surveyStages calls).map (·.weight)) = 100 := by
    rw [stagesAfter, List.map_map]
    rfl
  have hweights : absoluteWeight (stagesAfter surveyStages calls) ≤ 2 ^ 53 := by
    rw [absoluteWeight_stagesAfter]
    decide
  rw [aggregate_of_done hweights hall, hsum]

/-- **The end of a survey is announced as one hundred.** The last stage is done
after all others are. -/
theorem announced_of_completed {calls : List Call} (hunfinished : Unfinished calls)
    (hdone : ∀ w ∈ surveyStages, w.1 ≠ finalStage → latestReport? calls w.1 = some hundred)
    (label : String) :
    (runOf initial (calls ++ [.update finalStage label (.real hundred)])).announced =
      (runOf initial calls).announced ++ [⟨label, 100⟩] := by
  let c : Call := .update finalStage label (.real hundred)
  have hlatest : ∀ w ∈ surveyStages, latestReport? (calls ++ [c]) w.1 = some hundred := by
    intro w hw
    rw [latestReport?_concat]
    by_cases hname : w.1 = finalStage
    · rw [if_pos (by simp [c, Call.stage, hname])]
      rfl
    · rw [if_neg (by simpa [c, Call.stage] using Ne.symm hname)]
      exact hdone w hw hname
  have hstages := stages_runOf (t := initial) rfl calls
  have hknown : (runOf initial calls).tracker.stages.any (·.name == c.stage) = true := by
    rw [hstages, stagesAfter, List.any_map]
    rfl
  have hnumber : c.amount.toBinary64 = .ok hundred := rfl
  have hbefore := last_of_unfinished hunfinished
  rw [runOf_concat]
  rcases (runOf initial calls).step_cases c with ⟨hnone, -⟩ | ⟨stages, hsome, hcases⟩
  · -- The stage is known and the report is a number, so the call is not refused.
    rw [reported?, if_pos hknown, hnumber] at hnone
    cases hnone
  · have hafter : stages = stagesAfter surveyStages (calls ++ [c]) := by
      rw [stagesAfter_concat hstages, hsome, Option.getD_some]
    rw [hafter, aggregate_of_latest hlatest] at hcases
    rcases hcases with ⟨⟨f, hf⟩, -⟩ | ⟨n, hn, ⟨hle, -⟩ | ⟨-, hstep⟩⟩
    · cases hf
    · -- The aggregate is above all that was announced, so the call does not stay silent.
      rw [← Except.ok.inj hn] at hle
      omega
    · rw [hstep, ← Except.ok.inj hn]
      rfl

end Tracker
end CodeSurvey
