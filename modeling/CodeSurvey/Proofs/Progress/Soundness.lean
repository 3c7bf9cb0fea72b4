/-
# What holds of every run of a tracker

A call that returns gives the last percentage announced, which is the greatest aggregate so far
(`run_sound`). A call that fails leaves the tracker as it was, with two exceptions (`Fails`). What a
stage reports is stored before the stages are aggregated, so a call whose aggregate is no number has
stored the report when it fails (`failures_leave_traces`); that takes weights of more than `2⁵³` in
all. And a listener is told after the announcement is made.

Stages of distinct names whose weights are not negative add up to one hundred at most, and to one
hundred when the latest report of each was one hundred or more: the last percentage announced is
never below the aggregate of the stages as they are (`last_between`).
-/

import CodeSurvey.Proofs.Progress.Run

namespace CodeSurvey
namespace Tracker

/-- How a call can fail. It is refused and changes nothing; or it has stored the report, but the
weights are so great that the stages do not aggregate; or the listener fails when it is told
what the call announces. -/
inductive Fails (listener : Announcement → Option Failure) (t : Tracker) (c : Call)
    (f : Failure) : Prop
  | refused (unchanged : (t.call c).1 = t) (silent : (t.call c).2.1 = none)
  | notAggregated (stages : List StageProgress) (stored : reported? t c = some stages)
      (failed : aggregate stages = .error f) (heavy : 2 ^ 53 < absoluteWeight t.stages)
      (after : (t.call c).1 = ⟨stages, t.last⟩) (silent : (t.call c).2.1 = none)
  | notHeard (a : Announcement) (stages : List StageProgress) (stored : reported? t c = some stages)
      (told : (t.call c).2.1 = some a) (failed : listener a = some f)
        (after : (t.call c).1 = ⟨stages, a.percent⟩)

/-- A call that fails, of stages with their latest reports, fails in one of these ways. -/
theorem fails_of_outcome {t : Tracker} {weights : List (String × Int)} {calls : List Call}
    (h : t.stages = stagesAfter weights calls) {listener : Announcement → Option Failure} {c : Call}
    {f : Failure} (hf : outcome listener t c = .error f) : Fails listener t c f := by
  rcases call_cases t c with ⟨-, g, hcall⟩ | ⟨stages, hsome,
      ⟨g, hg, hcall⟩ | ⟨n, -, ⟨-, hcall⟩ | ⟨-, hcall⟩⟩⟩
  · exact .refused (by rw [hcall]) (by rw [hcall])
  · rw [outcome_of_silent hcall] at hf
    rw [Except.error.inj hf] at hg
    refine .notAggregated stages hsome hg ?_ (by rw [hcall]) (by rw [hcall])
    -- Stages that are not so heavy do aggregate, since how much of them is done is a percentage.
    by_contra hlight
    have hstages : stages = stagesAfter weights (calls ++ [c]) := by
      rw [stagesAfter_concat h, hsome, Option.getD_some]
    rw [h, absoluteWeight_stagesAfter, Nat.not_lt,
      ← absoluteWeight_stagesAfter weights (calls ++ [c]), ← hstages] at hlight
    obtain ⟨n, hn, -⟩ :=
      aggregate_of_percent hlight fun s hs => isPercent_of_mem_stagesAfter (hstages ▸ hs)
    cases hn.symm.trans hg
  · rw [outcome_of_silent hcall] at hf
    cases hf
  · rw [outcome_of_told hcall] at hf
    split at hf
    · rename_i g hheard
      rw [Except.error.inj hf] at hheard
      exact .notHeard ⟨c.label, n⟩ stages hsome (by rw [hcall]) hheard (by rw [hcall])
    · cases hf

/-- A call that returns gives the last percentage announced. -/
theorem eq_last_of_outcome {t : Tracker} {listener : Announcement → Option Failure}
    {c : Call} {v : Int} (hv : outcome listener t c = .ok v) : v = (t.call c).1.last := by
  rcases call_cases t c with ⟨-, g, hcall⟩ | ⟨stages, -,
      ⟨g, -, hcall⟩ | ⟨n, -, ⟨-, hcall⟩ | ⟨-, hcall⟩⟩⟩
  · rw [outcome_of_silent hcall] at hv
    cases hv
  · rw [outcome_of_silent hcall] at hv
    cases hv
  · rw [outcome_of_silent hcall] at hv
    rw [hcall]
    exact (Except.ok.inj hv).symm
  · rw [outcome_of_told hcall] at hv
    rw [hcall]
    split at hv
    · cases hv
    · exact (Except.ok.inj hv).symm

/-- What holds of every run of calls from a tracker, whatever its stages and its calls are. -/
structure Sound (t : Tracker) (calls : List Call) : Prop where
  increasing : ((runOf t calls).announced.map (·.percent)).Pairwise (· < ·)
  positive : ∀ a ∈ (runOf t calls).announced, 0 < a.percent
  last_eq : (runOf t calls).tracker.last = (runOf t calls).aggregates.foldl max 0
  current_isPercent : ∀ s ∈ (runOf t calls).tracker.stages, IsPercent s.current
  returns : ∀ listener c v, outcome listener (runOf t calls).tracker c = .ok v →
    v = (runOf t (calls ++ [c])).tracker.last
  fails : ∀ listener c f, outcome listener (runOf t calls).tracker c = .error f →
    Fails listener (runOf t calls).tracker c f

/-- What holds of every run of calls if the stages have distinct names and no negative weights. -/
structure Completes (weights : List (String × Int)) (t : Tracker) (calls : List Call) : Prop where
  announced_le : ∀ a ∈ (runOf t calls).announced, a.percent ≤ 100
  absoluteWeight_eq : absoluteWeight (runOf t calls).tracker.stages = 100
  last_of_done : (∀ w ∈ weights, ∃ x, latestReport? calls w.1 = some x ∧ hundred.le x) →
    (runOf t calls).tracker.last = 100

theorem total_max_nonneg (weights : List (String × Int)) :
    0 ≤ total (weights.map fun w => max 0 w.2) := by
  induction weights with
  | nil => exact Int.le_refl 0
  | cons w weights ih =>
    rw [List.map_cons, total_cons]
    omega

/-- The last percentage announced is at most the sum of the positive weights, and at least the
aggregate of the stages as they are, unless the weights are too great. -/
theorem last_between {t : Tracker} {weights : List (String × Int)}
    (h : t.stages = stagesAfter weights []) (hlast : t.last = 0)
    (hlight : total (weights.map (·.2.natAbs)) ≤ 2 ^ 53) (calls : List Call) :
    (runOf t calls).tracker.last ≤ total (weights.map fun w => max 0 w.2) ∧
      ∀ n, aggregate (runOf t calls).tracker.stages = .ok n → n ≤ (runOf t calls).tracker.last := by
  induction calls using List.reverseRecOn with
  | nil =>
    have hstart : aggregate t.stages = .ok 0 := by
      rw [h]
      refine aggregate_of_start (by rwa [absoluteWeight_stagesAfter]) fun s hs => ?_
      obtain ⟨w, -, rfl⟩ := List.mem_map.1 hs
      rfl
    refine ⟨?_, fun n hn => ?_⟩
    · exact hlast ▸ total_max_nonneg weights
    · have hzero : n = 0 := Except.ok.inj (hn.symm.trans hstart)
      rw [hzero]
      exact Int.le_of_eq hlast.symm
  | append_singleton calls c ih =>
    obtain ⟨hupper, hlower⟩ := ih
    have hstages := stages_runOf h (calls ++ [c])
    rw [runOf_concat] at hstages ⊢
    rcases (runOf t calls).step_cases c with ⟨-, hstep⟩ | ⟨stages, -,
        ⟨⟨f, hf⟩, hstep⟩ | ⟨n, hn, hcases⟩⟩
    · rw [hstep]
      exact ⟨hupper, hlower⟩
    · rw [hstep]
      refine ⟨hupper, fun m hm => ?_⟩
      cases hm.symm.trans hf
    · rcases hcases with ⟨hle, hstep⟩ | ⟨-, hstep⟩
      · rw [hstep]
        refine ⟨hupper, fun m hm => ?_⟩
        rw [Except.ok.inj (hm.symm.trans hn)]
        exact hle
      · rw [hstep] at hstages ⊢
        have hstages : stages = stagesAfter weights (calls ++ [c]) := hstages
        refine ⟨?_, fun m hm => Int.le_of_eq (Except.ok.inj (hm.symm.trans hn))⟩
        obtain ⟨m, hm, -, hmax⟩ := aggregate_of_percent
          (by rwa [absoluteWeight_stagesAfter]) fun s (hs : s ∈
            stagesAfter weights (calls ++ [c])) =>
            isPercent_of_mem_stagesAfter hs
        rw [← hstages, hn] at hm
        rw [Except.ok.inj hm]
        rw [stagesAfter, List.map_map] at hmax
        exact hmax

theorem total_natAbs_of_nonneg {weights : List (String × Int)} (h : ∀ w ∈ weights, 0 ≤ w.2) :
    ((total (weights.map (·.2.natAbs)) : Nat) : Int) = total (weights.map Prod.snd) := by
  induction weights with
  | nil => rfl
  | cons w weights ih =>
    have hw := h w (List.mem_cons_self ..)
    rw [List.map_cons, List.map_cons, total_cons, total_cons,
      ← ih fun v hv => h v (List.mem_cons_of_mem w hv)]
    omega

theorem total_max_of_nonneg {weights : List (String × Int)} (h : ∀ w ∈ weights, 0 ≤ w.2) :
    total (weights.map fun w => max 0 w.2) = total (weights.map Prod.snd) :=
  congrArg total (List.map_congr_left fun w hw => Int.max_eq_right (h w hw))

/-- What a tracker starts with. -/
theorem eq_of_ofStages {weights : List (String × Int)} {t : Tracker}
    (h : ofStages weights = .ok t) :
    total (weights.map Prod.snd) = 100 ∧ t = ⟨stagesAfter (Keyed.ofList weights) [], 0⟩ := by
  unfold ofStages at h
  dsimp only at h
  split at h
  · rename_i hsum
    exact ⟨hsum, (Except.ok.inj h).symm⟩
  · cases h

/-- **Runs are sound.** Whatever stages a tracker starts with, every run announces increasing
percentages, keeps the greatest aggregate as the last of them and fails in known ways only.
Stages of distinct names and no negative weights never pass one hundred, and reach it when the
latest report of each does. -/
theorem run_sound {weights : List (String × Int)} {t : Tracker} (h : ofStages weights = .ok t)
    (calls : List Call) :
    Sound t calls ∧
      ((weights.map Prod.fst).Nodup → (∀ w ∈ weights, 0 ≤ w.2) → Completes weights t calls) := by
  obtain ⟨hsum, rfl⟩ := eq_of_ofStages h
  have hstages := stages_runOf (t := ⟨stagesAfter (Keyed.ofList weights) [], 0⟩) rfl calls
  have hconsistent := Consistent.runOf (t := ⟨stagesAfter (Keyed.ofList weights) [], 0⟩) rfl calls
  refine ⟨?_, fun hnodup hnonneg => ?_⟩
  · refine
      { increasing := hconsistent.increasing
        positive := hconsistent.positive
        last_eq := hconsistent.last_eq
        current_isPercent := fun s hs => isPercent_of_mem_stagesAfter (hstages ▸ hs)
        returns := fun listener c v hv => ?_
        fails := fun listener c f hf => fails_of_outcome hstages hf }
    rw [runOf_concat]
    exact eq_last_of_outcome hv
  · rw [Keyed.ofList_of_nodup hnodup] at hstages hconsistent ⊢
    have hweight : total (weights.map (·.2.natAbs)) = 100 := by
      have := total_natAbs_of_nonneg hnonneg
      omega
    obtain ⟨hupper, hlower⟩ := last_between (t := ⟨stagesAfter weights [], 0⟩) rfl rfl
      (by rw [hweight]; decide) calls
    rw [total_max_of_nonneg hnonneg, hsum] at hupper
    refine
      { announced_le := fun a ha => Int.le_trans (hconsistent.announced_le_last a ha) hupper
        absoluteWeight_eq := by rw [hstages, absoluteWeight_stagesAfter, hweight]
        last_of_done := fun hdone => Int.le_antisymm hupper (hlower 100 ?_) }
    have hall : ∀ s ∈ stagesAfter weights calls, s.current = hundred := by
      intro s hs
      obtain ⟨w, hw, rfl⟩ := List.mem_map.1 hs
      obtain ⟨x, hx, hle⟩ := hdone w hw
      show doneAfter calls w.1 = hundred
      rw [doneAfter, hx]
      exact clampPercent_of_le hle
    have htotal : total ((stagesAfter weights calls).map (·.weight)) = 100 := by
      rw [stagesAfter, List.map_map]
      exact hsum
    rw [hstages, aggregate_of_done (by rw [absoluteWeight_stagesAfter, hweight]; decide) hall,
      htotal]

/-- Two stages, one of which reports one hundred by an infinite progress, and an
unknown one in between. -/
theorem run_sound_of_infinite_progress :
    let weights : List (String × Int) := [("files", 60), ("quality", 40)]
    let calls : List Call :=
      [.update "files" "half" (.int 50), .update "deploy" "lost" (.int 10),
        .complete "quality" "done", .update "files" "all" (.real (.infinite false))]
    ∃ t, ofStages weights = .ok t ∧ Sound t calls ∧ (runOf t calls).tracker.last = 100 := by
  intro weights calls
  have hstart : ofStages weights = .ok ⟨stagesAfter weights [], 0⟩ := rfl
  obtain ⟨hsound, hcompletes⟩ := run_sound hstart calls
  have hnodup : (weights.map Prod.fst).Nodup := by decide
  have hnonneg : ∀ w ∈ weights, 0 ≤ w.2 := by decide
  have hdone : ∀ w ∈ weights, (latestReport? calls w.1).any (hundred.le ·) := by decide +kernel
  exact ⟨_, hstart, hsound, (hcompletes hnodup hnonneg).last_of_done fun w hw =>
    (Option.any_eq_true _ _).1 (hdone w hw)⟩

/-- A weight beyond the range of numbers makes every call fail that reports, but not before
the report is stored. -/
theorem call_of_overflow {t : Tracker} {c : Call} {stages : List StageProgress}
    (h : reported? t c = some stages) (hweight : ∃ s ∈ stages, Binary64.ofInt? s.weight = none) :
    t.call c = (⟨stages, t.last⟩, none, .error .integerTooLarge) := by
  have hfails := aggregate_of_overflow hweight
  rcases call_cases t c with ⟨hnone, -⟩ | ⟨stages', hsome, ⟨f, hf, hcall⟩ | ⟨n, hn, -⟩⟩
  · rw [hnone] at h
    cases h
  · have hstages : stages' = stages := Option.some.inj (hsome.symm.trans h)
    subst hstages
    rw [hcall, Except.error.inj (hf.symm.trans hfails)]
  · have hstages : stages' = stages := Option.some.inj (hsome.symm.trans h)
    subst hstages
    cases hn.symm.trans hfails

/-- **Failures leave traces.** A call that fails for a weight beyond the range of numbers has stored
its report; a call whose listener fails has made its announcement; and a report too large to be a
number is lost, so that a stage of which more than all was said to be done is not done. -/
theorem failures_leave_traces :
    (∃ t, ofStages [("a", 10 ^ 309), ("b", 100 - 10 ^ 309)] = .ok t ∧
      outcome (fun _ => none) t (.update "a" "half" (.int 50)) = .error .integerTooLarge ∧
      (t.call (.update "a" "half" (.int 50))).1.stages ≠ t.stages) ∧
    (∃ t, ofStages [("a", 100)] = .ok t ∧
      outcome (fun _ => some (.reported "RuntimeError" "")) t (.complete "a" "all") =
        .error (.reported "RuntimeError" "") ∧
      (t.call (.complete "a" "all")).1.last ≠ t.last) ∧
    ∃ t, ofStages [("a", 100)] = .ok t ∧
      (runOf t [.update "a" "huge" (.int (10 ^ 400))]).tracker.last ≠ 100 := by
  refine ⟨?overflow, ?listener, ?refused⟩
  case overflow =>
    let half : Call := .update "a" "half" (.int 50)
    have hsum : total
        ([("a", 10 ^ 309), ("b", 100 - 10 ^ 309)].map (Prod.snd : String × Int → Int)) = 100 := by
      decide +kernel
    have hnone : Binary64.ofInt? (10 ^ 309) = none := by decide +kernel
    have hchange : (Binary64.ofInt 50).clampPercent ≠ Binary64.zero := by decide +kernel
    let first (x : Binary64) : StageProgress := ⟨"a", 10 ^ 309, x⟩
    let second : StageProgress := ⟨"b", 100 - 10 ^ 309, Binary64.zero⟩
    let t : Tracker := ⟨[first Binary64.zero, second], 0⟩
    have hfifty : half.amount.toBinary64 = .ok (Binary64.ofInt 50) :=
      toBinary64_int (Binary64.ofInt?_of_isFinite (Binary64.ofInt_exact (by decide)).1)
    have hreported : reported? t half = some [first (Binary64.ofInt 50).clampPercent, second] := by
      rw [reported?, hfifty]
      rfl
    have hcall := call_of_overflow hreported ⟨_, List.mem_cons_self .., hnone⟩
    refine ⟨t, ?_, outcome_of_silent hcall, ?_⟩
    · unfold ofStages
      dsimp only
      rw [if_pos hsum, Keyed.ofList_of_nodup (by decide)]
      rfl
    · rw [hcall]
      intro heq
      exact hchange (StageProgress.mk.inj (List.cons.inj heq).1).2.2
  case listener =>
    refine ⟨⟨stagesAfter [("a", 100)] [], 0⟩, rfl, ?_, by decide +kernel⟩
    have htold : (call ⟨stagesAfter [("a", 100)] [], 0⟩ (.complete "a" "all")).2.1.isSome := by
      decide +kernel
    obtain ⟨a, ha⟩ := Option.isSome_iff_exists.1 htold
    rw [outcome, ha]
    rfl
  case refused => exact ⟨⟨stagesAfter [("a", 100)] [], 0⟩, rfl, by decide +kernel⟩

end Tracker
end CodeSurvey
