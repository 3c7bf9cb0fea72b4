/-
# Progress in journals

Each step of progress in a journal is a call of the tracker of a survey, so what is announced of a
journal is what a run of the tracker announces (`announcements_eq`), and how much of a stage is done
at the end is the last that the journal reports of the stage (`latestReport?_callsOf`). What a
computation reports of a stage is read off its parts (`Recorded.reports`).

Only the boundaries of a run report progress. The stages themselves do not (`Stages.Unreporting`):
the most that they record is how many items are done, and this is made into progress of their own
stage (`Attempt.reports_advancing`). That holds of the stages of the library, whatever their
settings, the clock and the text generator are (`Stages.unreporting_standard`).
-/

import CodeSurvey.Proofs.Progress.Completion
import CodeSurvey.Proofs.Survey.Degradation

namespace CodeSurvey

/-- The call of a tracker that an entry stands for. -/
def Entry.call? : Entry → Option Tracker.Call
  | .progress stage label amount => some (.update stage label (.real amount))
  | _ => none

/-- What an entry reports of a stage. -/
def Entry.report? (stage : String) : Entry → Option Binary64
  | .progress reported _ amount => if reported == stage then some amount else none
  | _ => none

/-- The calls of a tracker that a journal stands for. -/
def callsOf (es : List Entry) : List Tracker.Call := es.filterMap Entry.call?

/-- What a journal reports of a stage, in order. -/
def reportsOf (stage : String) (es : List Entry) : List Binary64 :=
  es.filterMap (Entry.report? stage)

theorem reportsOf_append (stage : String) (es fs : List Entry) :
    reportsOf stage (es ++ fs) = reportsOf stage es ++ reportsOf stage fs :=
      List.filterMap_append ..

/-- What is announced of a journal is what a run of the tracker of a survey announces. -/
theorem announcements_eq (es : List Entry) :
    announcements es = (Tracker.runOf Tracker.initial (callsOf es)).announced := by
  have hfold : ∀ step : Tracker × List Announcement → Entry → Tracker × List Announcement,
      (∀ (r : Tracker.Run) e, step (r.tracker, r.announced) e =
        ((e.call?.elim r r.step).tracker, (e.call?.elim r r.step).announced)) →
      ∀ r : Tracker.Run, (es.foldl step (r.tracker, r.announced)).2 =
        ((callsOf es).foldl Tracker.Run.step r).announced := by
    intro step hstep r
    induction es generalizing r with
    | nil => rfl
    | cons e es ih =>
      rw [List.foldl_cons, hstep, ih, callsOf, callsOf]
      cases hcall : e.call? with
      | none => rw [List.filterMap_cons_none hcall]; rfl
      | some c => rw [List.filterMap_cons_some hcall]; rfl
  refine hfold _ (fun r e => ?_) { tracker := Tracker.initial }
  cases e <;> rfl

theorem callsOf_append (es fs : List Entry) : callsOf (es ++ fs) = callsOf es ++ callsOf fs :=
  List.filterMap_append ..

/-- What a journal reports of a stage is what its calls report of it. -/
theorem reportsOf_eq (stage : String) (es : List Entry) :
    reportsOf stage es = Tracker.reportsIn (callsOf es) stage := by
  rw [Tracker.reportsIn, callsOf, reportsOf, List.filterMap_filterMap]
  congr 1
  funext e
  cases e <;> rfl

/-- The latest report of a stage is the last that a journal reports of it. -/
theorem latestReport?_callsOf (es : List Entry) (stage : String) :
    Tracker.latestReport? (callsOf es) stage = (reportsOf stage es).getLast? := by
  rw [reportsOf_eq]
  rfl

/-- The announcements of a journal are positive and increase. -/
theorem announcements_increasing (es : List Entry) :
    ((announcements es).map (·.percent)).Pairwise (· < ·) ∧ ∀ a ∈ announcements es,
      0 < a.percent := by
  have hconsistent := Tracker.Consistent.runOf (t := Tracker.initial) rfl (callsOf es)
  rw [announcements_eq]
  exact ⟨hconsistent.increasing, hconsistent.positive⟩

namespace Recorded

variable {α β : Type}

/-- What a computation reports of a stage, in order. -/
def reports (stage : String) (x : Recorded α) : List Binary64 := reportsOf stage x.entries

@[simp] theorem reports_pure (stage : String) (a : α) :
    (pure a : Recorded α).reports stage = [] := rfl

@[simp] theorem reports_bind (stage : String) (x : Recorded α) (f : α → Recorded β) :
    (x >>= f).reports stage = x.reports stage ++ (f x.value).reports stage := reportsOf_append ..

/-- Whether a computation reports no progress. -/
def Unreporting (x : Recorded α) : Prop := callsOf x.entries = []

theorem unreporting_pure (a : α) : (pure a : Recorded α).Unreporting := rfl

theorem Unreporting.bind {x : Recorded α} {f : α → Recorded β} (hx : x.Unreporting)
    (hf : ∀ a, (f a).Unreporting) : (x >>= f).Unreporting := by
  rw [Unreporting, bind_entries, callsOf_append, hx, hf]
  rfl

/-- A computation that reports no progress reports nothing of any stage. -/
theorem Unreporting.reports_eq_nil {x : Recorded α} (h : x.Unreporting) {stage : String} :
    x.reports stage = [] := by
  rw [reports, reportsOf_eq, h]
  rfl

end Recorded

@[simp] theorem reports_inform (stage text : String) : (inform text).reports stage = [] := rfl

@[simp] theorem reports_warn (stage step message : String) (detail : Option String) :
    (warn step message detail).reports stage = [] := rfl

@[simp] theorem reports_complain (stage message : String) (f : Failure) :
    (complain message f).reports stage = [] := rfl

@[simp] theorem reports_reach (stage reached label : String) (x : Binary64) :
    (reach reached label x).reports stage = if reached == stage then [x] else [] := by
  show reportsOf stage [.progress reached label x] = _
  rw [reportsOf, List.filterMap_cons]
  by_cases h : reached = stage <;> simp [Entry.report?, h]

@[simp] theorem reports_complete (stage completed label : String) :
    (complete completed label).reports stage = if completed == stage then [hundred] else [] :=
      reports_reach ..

namespace Attempt

variable {α β : Type}

/-- Whether a computation that may fail reports no progress. -/
def Unreporting (x : Attempt α) : Prop := x.outcome.Unreporting

theorem unreporting_ofOutcome (x : Except Failure α) : (ofOutcome x).Unreporting := rfl

theorem unreporting_lift {x : Recorded α} (h : x.Unreporting) : (liftM x : Attempt α).Unreporting :=
  h.bind fun _ => Recorded.unreporting_pure _

theorem Unreporting.bind {x : Attempt α} {f : α → Attempt β} (hx : x.Unreporting)
    (hf : ∀ a, (f a).Unreporting) : (x >>= f).Unreporting := by
  rw [Unreporting, outcome_bind]
  refine Recorded.Unreporting.bind hx fun r => ?_
  cases r with
  | ok a => exact hf a
  | error e => exact Recorded.unreporting_pure _

/-- Two steps neither of which reports anything of a stage report nothing of it. -/
theorem reports_bind_eq_nil {stage : String} {x : Attempt α} {f : α → Attempt β}
    (hx : x.outcome.reports stage = []) (hf : ∀ a, (f a).outcome.reports stage = []) :
    (x >>= f).outcome.reports stage = [] := by
  rw [outcome_bind, Recorded.reports_bind, hx, List.nil_append]
  cases x.outcome.value with
  | ok a => exact hf a
  | error e => rfl

/-- A boundary reports nothing itself. -/
@[simp] theorem reports_guarded (step : String) (neutral : α) (x : Attempt α) (stage : String) :
    (x.guarded step neutral).reports stage = x.outcome.reports stage := by
  rw [guarded, Recorded.reports_bind]
  cases x.outcome.value with
  | ok a => exact List.append_nil _
  | error f => exact List.append_nil _

/-- The items done are progress of one stage, and of no other one. -/
theorem reports_advancing {x : Attempt α} (h : x.Unreporting) {advancing stage : String}
    (hne : advancing ≠ stage) (label : Nat → Nat → String) :
    (x.advancing advancing label).outcome.reports stage = [] := by
  have hnone : ∀ e ∈ x.outcome.entries, Entry.report? stage e = none :=
    List.filterMap_eq_nil_iff.1 h.reports_eq_nil
  refine List.filterMap_eq_nil_iff.2 fun made hmade => ?_
  obtain ⟨e, he, hmade⟩ := List.mem_flatMap.1 hmade
  cases e with
  | advance done total =>
    rw [List.mem_singleton.1 hmade]
    exact if_neg (by simpa using hne)
  | warning w => rw [List.mem_singleton.1 hmade]; exact hnone _ he
  | note severity text => rw [List.mem_singleton.1 hmade]; exact hnone _ he
  | progress reached said amount => rw [List.mem_singleton.1 hmade]; exact hnone _ he

end Attempt

/-- Whether stages leave it to the boundaries to report progress. -/
structure Stages.Unreporting (st : Stages) : Prop where
  files : ∀ fs, (st.files fs).Unreporting
  commits : ∀ cs, (st.commits cs).Unreporting
  contributors : ∀ cs, (st.contributors cs).Unreporting
  declared : ∀ fs, (st.declared fs).Unreporting
  analyzers : st.analyzers.Unreporting
  quality : ∀ fs, (st.quality fs).Unreporting
  graph : ∀ fs, (st.graph fs).Unreporting
  inferredGraph : ∀ fs reason f, (st.inferredGraph fs reason f).Unreporting
  coupling : ∀ cs fs, (st.coupling cs fs).Unreporting
  metrics : ∀ facts, (st.metrics facts).Unreporting
  summarize : ∀ generate ∈ st.summarize, ∀ prompt, (generate prompt).Unreporting

section Library

open Attempt (unreporting_ofOutcome unreporting_lift)

variable (c : Classification) (p : Parser)

theorem Preparation.unreporting_files (limit : Int) (globs : List String) (fs : List SourceFile) :
    (Preparation.files limit globs fs).Unreporting := by
  refine Attempt.Unreporting.bind (unreporting_ofOutcome _) fun _ => ?_
  refine Attempt.Unreporting.bind ?_ fun _ => unreporting_ofOutcome (.ok _)
  unfold warnOversized
  split
  · exact unreporting_ofOutcome (.ok ())
  · exact Attempt.Unreporting.bind (unreporting_ofOutcome _) fun _ => unreporting_lift rfl

theorem Declared.unreporting_read (readers : Manifest.Readers) (d : Declared) (path : String)
    (file : SourceFile) : (d.read readers path file).Unreporting := by
  rw [read]
  split
  · exact unreporting_ofOutcome (.ok _)
  · exact Attempt.Unreporting.bind (unreporting_lift rfl) fun _ => unreporting_ofOutcome (.ok _)
  · exact unreporting_ofOutcome (.error _)

theorem Declared.unreporting_foldlM_read (readers : Manifest.Readers) (d : Declared)
    (ms : List (String × SourceFile)) :
    (ms.foldlM (fun (d : Declared) m => d.read readers m.1 m.2) d).Unreporting := by
  induction ms generalizing d with
  | nil => exact unreporting_ofOutcome (.ok d)
  | cons m ms ih => exact (unreporting_read readers d m.1 m.2).bind ih

theorem Declared.unreporting_ofFiles (files : List SourceFile) (readers : Manifest.Readers) :
    (Declared.ofFiles files readers).Unreporting := by
  rw [ofFiles, ofFilesBy]
  dsimp only
  split
  · exact Attempt.Unreporting.bind (unreporting_lift rfl) fun _ => unreporting_ofOutcome (.ok _)
  · refine Attempt.Unreporting.bind (unreporting_foldlM_read ..) fun d => ?_
    exact Attempt.Unreporting.bind (unreporting_lift rfl) fun _ => unreporting_ofOutcome (.ok _)

theorem Quality.unreporting_measure (f : SourceFile) : (measure c p f).Unreporting := by
  unfold measure
  dsimp only
  split
  · exact unreporting_ofOutcome (.ok _)
  · split
    · refine Attempt.Unreporting.bind (unreporting_ofOutcome _) fun parsed => ?_
      split
      · exact Attempt.Unreporting.bind (unreporting_ofOutcome _) fun _ =>
          unreporting_ofOutcome (.ok _)
      · exact Attempt.Unreporting.bind (unreporting_lift rfl) fun _ => unreporting_ofOutcome (.ok _)
    · exact unreporting_ofOutcome (.ok _)

theorem Quality.unreporting_score (f : SourceFile) : (score c p f).Unreporting := by
  rw [score]
  refine Recorded.Unreporting.bind (unreporting_measure c p f) fun r => ?_
  cases r with
  | ok m => exact Recorded.unreporting_pure m
  | error e => exact Recorded.Unreporting.bind rfl fun _ => Recorded.unreporting_pure _

theorem Quality.unreporting_scoreAll (ms : List QualityMetric) (fs : List SourceFile) :
    (scoreAll c p ms fs).Unreporting := by
  induction fs generalizing ms with
  | nil => exact Recorded.unreporting_pure ms
  | cons f rest ih => exact (unreporting_score c p f).bind fun m => ih (put m ms)

theorem Quality.unreporting_scoreBatches (more : Nat) (stopped : Nat → Bool) (total done : Nat)
    (ms : List QualityMetric) (fs : List SourceFile) :
    (scoreBatches c p more stopped total done ms fs).Unreporting := by
  induction done, ms, fs using scoreBatches.induct more stopped with
  | case1 done ms =>
    rw [scoreBatches]
    exact unreporting_ofOutcome (.ok ms)
  | case2 done ms f rest hstopped =>
    rw [scoreBatches, if_pos hstopped]
    exact unreporting_ofOutcome (.error _)
  | case3 done ms f rest hstopped ih =>
    rw [scoreBatches, if_neg hstopped]
    refine Attempt.Unreporting.bind (unreporting_lift (unreporting_scoreAll c p ..)) fun ms' => ?_
    exact Attempt.Unreporting.bind (unreporting_lift rfl) fun _ => ih ms'

theorem GraphBuild.unreporting_buildFallback (l : Limits) (files : List SourceFile)
    (reason : String) (detail : Option String) :
    (buildFallback c l files reason detail).Unreporting := rfl

theorem GraphBuild.unreporting_followAll (scan : Scanner) (known : List String) (total : Nat)
    (watch : Option (Deadline × Clock)) (done : Nat) (links : Links) (files : List SourceFile) :
    (followAll c scan known total watch done links files).Unreporting := by
  induction files generalizing watch done links with
  | nil => exact unreporting_ofOutcome (.ok links)
  | cons f rest ih =>
    rw [followAll]
    refine Attempt.Unreporting.bind (unreporting_ofOutcome _) fun watch' => ?_
    refine Attempt.Unreporting.bind (unreporting_ofOutcome _) fun specifiers => ?_
    exact Attempt.Unreporting.bind (unreporting_lift rfl) fun _ => ih watch' (done + 1) _

theorem GraphBuild.unreporting_buildWith (scan : Scanner) (l : Limits)
    (watch : Option (Deadline × Clock)) (files : List SourceFile) :
    (buildWith c scan l watch files).Unreporting := by
  unfold buildWith
  dsimp only
  split
  · exact unreporting_lift (unreporting_buildFallback c l _ _ none)
  · refine Attempt.Unreporting.bind (unreporting_lift rfl) fun _ => ?_
    refine Attempt.Unreporting.bind (unreporting_followAll c scan ..) fun links => ?_
    split
    · exact Attempt.Unreporting.bind (unreporting_lift rfl) fun _ =>
        Attempt.Unreporting.bind (unreporting_lift rfl) fun _ => unreporting_ofOutcome (.ok _)
    · exact Attempt.Unreporting.bind (unreporting_lift rfl) fun _ => unreporting_ofOutcome (.ok _)

theorem Coupling.unreporting_compute (s : CouplingSettings) (commits : List Commit)
    (files : List SourceFile) : (Coupling.compute c s commits files).Unreporting := by
  refine Attempt.Unreporting.bind (unreporting_ofOutcome _) fun given => ?_
  refine Attempt.Unreporting.bind (unreporting_ofOutcome _) fun merged => ?_
  exact Attempt.Unreporting.bind (unreporting_lift rfl) fun _ => unreporting_ofOutcome (.ok _)

end Library

/-- Stages with a generator of summaries, if there is one, that answers a prompt or fails. -/
def Stages.summarizedBy (st : Stages)
    (generate : Option (String → Except Failure String)) : Stages :=
  { st with summarize := generate.map fun answer prompt => .ofOutcome (answer prompt) }

/-- The stages of the library do not report progress, whatever a generator of summaries answers. -/
theorem Stages.unreporting_standard (c : Classification) (p : Parser) (s : Settings) (clock : Clock)
    (now : Moment) (readers : Manifest.Readers)
    (generate : Option (String → Except Failure String)) :
    ((Stages.standard c p s clock now readers).summarizedBy generate).Unreporting where
  files fs := Preparation.unreporting_files ..
  commits cs := Attempt.unreporting_ofOutcome (.ok _)
  contributors cs := Attempt.unreporting_ofOutcome (.ok _)
  declared fs := Declared.unreporting_ofFiles ..
  analyzers := Attempt.unreporting_ofOutcome _
  quality fs := Quality.unreporting_scoreBatches ..
  graph fs := GraphBuild.unreporting_buildWith ..
  inferredGraph fs reason f := Attempt.unreporting_lift (GraphBuild.unreporting_buildFallback ..)
  coupling cs fs := Coupling.unreporting_compute ..
  metrics facts := Attempt.unreporting_ofOutcome _
  summarize asked hasked prompt := by
    obtain ⟨answer, -, rfl⟩ := Option.mem_map.1 hasked
    exact Attempt.unreporting_ofOutcome _

end CodeSurvey
