/-
# Runs under a schedule

The quality of the files, their graph, the coupled pairs and the analyzers of the first phase are
jobs that run at the same time: they share what the analyzers read, and their warnings, notes and
steps of progress go into one journal. When all of them have finished, what the analyzers read is
changed, and then the other analyzers are jobs of the same kind (`Survey.runExaminationUnder`). A
schedule says which job takes the next step.

Without a schedule the jobs run one after another, as the stages of a run do
(`Survey.runUnder_nil`). Whatever the schedule is, what is found is the same
(`Survey.value_runExaminationUnder`), since the jobs read nothing that another one changes.
-/

import CodeSurvey.Proofs.Pool
import CodeSurvey.Proofs.Survey.Plan

namespace CodeSurvey

/-- What one job contributes to what is found in a repository. -/
inductive Part
  | quality (ms : List QualityMetric)
  | graph (g : DependencyGraph)
  | coupling (ps : List CouplingPair)
  | findings (name : String) (found : List Finding)

/-- Which job takes the next step, among those of the first phase and among the others. -/
structure Schedule where
  early : List Nat := []
  late : List Nat := []

namespace Survey

/-- Where nothing is found yet. -/
def Examined.nothing : Examined := ⟨[], {}, [], []⟩

/-- What is found, with one more part. -/
def Examined.put (e : Examined) : Part → Examined
  | .quality ms => { e with quality := ms }
  | .graph g => { e with graph := g }
  | .coupling ps => { e with coupling := ps }
  | .findings name found => { e with findings := Keyed.assign name found e.findings }

/-- An analyzer as a job. -/
def analyzerJob (a : Analyzer) (shared : AnalyzerContext) : Recorded Part := do
  let (name, found) ← runAnalyzer shared a
  return .findings name found

/-- The jobs that run first, in the order in which they are given to the pool. -/
def earlyJobs (st : Stages) (x : Prepared) : List (AnalyzerContext → Recorded Part) :=
  [fun _ => Part.quality <$> runQuality st x.analyzable,
    fun _ => Part.graph <$> runArchitecture st x.analyzable,
    fun _ => Part.coupling <$> (st.coupling x.commits x.files).guarded "coupling" []] ++
  (x.analyzers.filter (·.phase ≤ 1)).map analyzerJob

/-- The jobs that run when the first ones have finished. -/
def lateJobs (x : Prepared) : List (AnalyzerContext → Recorded Part) :=
  (x.analyzers.filter (1 < ·.phase)).map analyzerJob

/-- What the jobs of the first phase share. -/
def sharedEarly (c : Classification) (p : Parser) (x : Prepared) : AnalyzerContext where
  classification := c
  parser := p
  files := x.analyzable
  commits := x.commits

/-- What the other jobs share: also what the first ones have found. -/
def sharedLate (c : Classification) (p : Parser) (x : Prepared) (e : Examined) : AnalyzerContext :=
  { sharedEarly c p x with quality := e.quality, graph := e.graph, coupling := e.coupling }

/-- The stages that examine a repository, at the same time as far as they do
not wait for each other. -/
def runExaminationUnder (schedule : Schedule) (st : Stages) (c : Classification) (p : Parser)
    (x : Prepared) :
    Recorded Examined := do
  let early ← Pool.run schedule.early (sharedEarly c p x) (earlyJobs st x)
  let e := early.foldl Examined.put .nothing
  reach "finalizing" "Computed structural signals" (Binary64.ofInt 25)
  let late ← Pool.run schedule.late (sharedLate c p x e) (lateJobs x)
  reach "finalizing" "Generated findings" (Binary64.ofInt 60)
  return late.foldl Examined.put e

/-- The stages before the prompt, where the jobs take turns. -/
def studyUnder (schedule : Schedule) (st : Stages) (c : Classification) (p : Parser)
    (r : Repository) :
    Recorded Studied := do
  runOpening r
  let prepared ← runPreparation st c r
  let examined ← runExaminationUnder schedule st c p prepared
  return { prepared, examined }

/-- The last stages, which no stage waits for. -/
def conclude (st : Stages) (prompt : Option String) (x : Prepared) (e : Examined) :
    Recorded Survey := do
  let summary ← runSummary st prompt
  reachSummary summary
  let derived : Attempt (Option Metrics) := some <$> st.metrics (factsOf x e)
  let metrics ← derived.guarded "finalizing" none
  return {
    graph := e.graph
    quality := e.quality
    coupling := e.coupling
    findings := e.findings
    contributors := x.contributors
    declared := x.declared
    asked := prompt
    metrics, summary }

/-- All stages, up to the last one. -/
def workUnder (schedule : Schedule) (st : Stages) (c : Classification) (p : Parser) (r : Repository)
    (prompt : Option String) : Recorded Survey := do
  let s ← studyUnder schedule st c p r
  conclude st prompt s.prepared s.examined

/-- The prompt of a run, from what the stages before it come to. -/
def promptUnder (schedule : Schedule) (st : Stages) (c : Classification) (p : Parser)
    (r : Repository) : Except Failure (Option String) :=
  let s := (studyUnder schedule st c p r).value
  promptOf st r s.prepared s.examined

/-- The completion of a run when all stages have done their work. -/
def finish (r : Repository) (work : Recorded Survey) : Recorded Survey := do
  let s ← work
  complete "finalizing" "Analysis complete"
  inform (closingText r s work.warnings.length)
  return { s with warnings := work.warnings }

/-- A run over a repository: when all stages have done their work, the run is complete. It is
abandoned where the clock cannot be started or the prompt cannot be written. -/
def runUnder (schedule : Schedule) (st : Stages) (c : Classification) (p : Parser)
    (r : Repository) :
    Except Failure (Recorded Survey) := do
  r.validate st.room
  st.deadline
  let prompt ← promptUnder schedule st c p r
  return finish r (workUnder schedule st c p r prompt)

variable (st : Stages) (c : Classification) (p : Parser)

theorem foldl_put_findings (e : Examined) (rs : List (String × List Finding)) :
    (rs.map fun r => Part.findings r.1 r.2).foldl Examined.put e =
      { e with findings := rs.foldl (fun ms r => Keyed.assign r.1 r.2 ms) e.findings } := by
  induction rs generalizing e with
  | nil => rfl
  | cons r rs ih => rw [List.map_cons, List.foldl_cons, ih]; rfl

/-- What the analyzers contribute as jobs. -/
theorem value_analyzerJobs (as : List Analyzer) (shared : AnalyzerContext) :
    ((as.map analyzerJob).map fun job => (job shared).value) =
      (as.map fun a => (runAnalyzer shared a).value).map fun r => Part.findings r.1 r.2 := by
  rw [List.map_map, List.map_map]
  rfl

/-- What an analyzer records as a job. -/
theorem entries_analyzerJob (a : Analyzer) (shared : AnalyzerContext) :
    (analyzerJob a shared).entries = (runAnalyzer shared a).entries := List.append_nil _

theorem entries_map {α β : Type} (f : α → β) (x : Recorded α) : (f <$> x).entries = x.entries :=
  List.append_nil _

/-- What each of the first jobs records. -/
theorem entries_earlyJobs (x : Prepared) (shared : AnalyzerContext) :
    ((earlyJobs st x).map fun job => (job shared).entries) =
      [(runQuality st x.analyzable).entries, (runArchitecture st x.analyzable).entries,
        ((st.coupling x.commits x.files).guarded "coupling" []).entries] ++
      (x.analyzers.filter (·.phase ≤ 1)).map fun a => (runAnalyzer shared a).entries := by
  rw [earlyJobs, List.map_append, List.map_map]
  simp only [List.map_cons, List.map_nil, entries_map]
  exact congrArg _ (List.map_congr_left fun a _ => entries_analyzerJob a shared)

/-- What each of the other jobs records. -/
theorem entries_lateJobs (x : Prepared) (shared : AnalyzerContext) :
    ((lateJobs x).map fun job => (job shared).entries) =
      (x.analyzers.filter (1 < ·.phase)).map fun a => (runAnalyzer shared a).entries := by
  rw [lateJobs, List.map_map]
  exact List.map_congr_left fun a _ => entries_analyzerJob a shared

/-- What the first jobs contribute together. -/
theorem foldl_put_earlyJobs (x : Prepared) (shared : AnalyzerContext) :
    ((earlyJobs st x).map fun job => (job shared).value).foldl Examined.put .nothing =
      { quality := (runQuality st x.analyzable).value
        graph := (runArchitecture st x.analyzable).value
        coupling := ((st.coupling x.commits x.files).guarded "coupling" []).value
        findings := Keyed.ofList
          ((x.analyzers.filter (·.phase ≤ 1)).map fun a => (runAnalyzer shared a).value) } := by
  rw [earlyJobs, List.map_append, value_analyzerJobs, List.foldl_append, foldl_put_findings]
  rfl

/-- **What is found does not depend on the schedule.** -/
theorem value_runExaminationUnder (schedule : Schedule) (x : Prepared) :
    (runExaminationUnder schedule st c p x).value = (runExamination st c p x).value := by
  simp only [runExaminationUnder, runExamination, Recorded.value_bind, Pool.value_run,
    Recorded.value_pure, Recorded.value_mapM, foldl_put_earlyJobs, lateJobs, value_analyzerJobs,
    foldl_put_findings, sharedEarly, sharedLate]
  rw [Keyed.ofList, Keyed.ofList, List.foldl_append]

/-- Without a schedule the jobs record what the stages record one after another. -/
theorem runExaminationUnder_nil (x : Prepared) :
    runExaminationUnder {} st c p x = runExamination st c p x := by
  refine Recorded.ext (value_runExaminationUnder st c p {} x) ?_
  simp only [runExaminationUnder, runExamination, Pool.run_nil, Recorded.bind_entries,
    Recorded.value_mapM, foldl_put_earlyJobs, Recorded.entries_mapM, Recorded.pure_entries,
    sharedEarly, sharedLate]
  simp only [List.flatMap_def, entries_earlyJobs, entries_lateJobs, List.flatten_append,
    List.flatten_cons, List.flatten_nil, List.append_assoc, List.append_nil]

/-- The stages before the prompt come to the same, whatever the schedule is. -/
theorem value_studyUnder (schedule : Schedule) (r : Repository) :
    (studyUnder schedule st c p r).value = (runStudy st c p r).value := by
  simp only [studyUnder, runStudy, Recorded.value_bind, value_runExaminationUnder,
    Recorded.value_pure]

theorem studyUnder_nil (r : Repository) : studyUnder {} st c p r = runStudy st c p r := by
  simp only [studyUnder, runStudy, runExaminationUnder_nil]

/-- The prompt of a run does not depend on the schedule. -/
theorem promptUnder_eq (schedule : Schedule) (r : Repository) :
    promptUnder schedule st c p r =
      promptOf st r (runStudy st c p r).value.prepared (runStudy st c p r).value.examined := by
  rw [promptUnder, value_studyUnder]

/-- The last stages of a run do their work before the run is complete. -/
theorem runConclusion_eq (prompt : Option String) (x : Prepared) (e : Examined) :
    runConclusion st prompt x e = do
      let s ← conclude st prompt x e
      complete "finalizing" "Analysis complete"
      return s := by
  simp only [runConclusion, conclude, bind_assoc, pure_bind]

/-- All stages in order do their work before the run is complete. -/
theorem runStages_eq (r : Repository) :
    runStages st c p r = do
      st.deadline
      let prompt ← promptUnder {} st c p r
      return do
        let s ← workUnder {} st c p r prompt
        complete "finalizing" "Analysis complete"
        return s := by
  simp only [runStages, promptUnder, workUnder, studyUnder_nil, runConclusion_eq, bind_assoc]

/-- **Without a schedule a run is a run of the stages in order.** -/
theorem runUnder_nil (r : Repository) : runUnder {} st c p r = run st c p r := by
  rw [runUnder, run, runStages_eq]
  cases r.validate st.room with
  | error f => rfl
  | ok u =>
    cases st.deadline with
    | error f => rfl
    | ok u =>
      cases promptUnder {} st c p r with
      | error f => rfl
      | ok prompt =>
        refine congrArg Except.ok ?_
        simp only [finish, bind_assoc, pure_bind, Recorded.warnings_bind, warnings_complete,
          Recorded.warnings_pure, List.append_nil]

variable {st c p}

/-- Runs are the same whose checks, clocks, studies, prompts and last stages are, over
repositories of the same name. -/
theorem runUnder_congr {schedule : Schedule} {st' : Stages} {r r' : Repository}
    (hvalid : r.validate st.room = r'.validate st'.room) (hclock : st.deadline = st'.deadline)
    (hstudy : studyUnder schedule st c p r = studyUnder schedule st' c p r')
    (hprompt : promptOf st r = promptOf st' r') (hlast : conclude st = conclude st')
    (hlabel : labelOf r = labelOf r') :
    runUnder schedule st c p r = runUnder schedule st' c p r' := by
  have hprompts : promptUnder schedule st c p r = promptUnder schedule st' c p r' := by
    rw [promptUnder, promptUnder, hstudy, hprompt]
  have hwork : workUnder schedule st c p r = workUnder schedule st' c p r' := by
    funext prompt
    rw [workUnder, workUnder, hstudy, hlast]
  have hfinish : finish r = finish r' := by
    unfold finish closingText
    rw [hlabel]
  rw [runUnder, runUnder, hvalid, hclock, hprompts, hwork, hfinish]

/-- A run that is not abandoned gives a survey, and its journal is that of the work, the completion
of the last stage, and a note. -/
theorem runUnder_eq_ok_iff {schedule : Schedule} {r : Repository} {x : Recorded Survey} :
    runUnder schedule st c p r = .ok x ↔
      r.validate st.room = .ok () ∧ st.deadline = .ok () ∧
        ∃ prompt, promptUnder schedule st c p r = .ok prompt ∧
        let work := workUnder schedule st c p r prompt
        x = ⟨{ work.value with warnings := work.warnings },
          work.entries ++
            [.progress "finalizing" "Analysis complete" hundred,
              .note .info (closingText r work.value work.warnings.length)]⟩ := by
  rw [runUnder]
  cases r.validate st.room with
  | error f => exact ⟨nofun, fun h => nomatch h.1⟩
  | ok u =>
    cases st.deadline with
    | error f => exact ⟨nofun, fun h => nomatch h.2.1⟩
    | ok u =>
      cases promptUnder schedule st c p r with
      | error f => exact ⟨nofun, fun ⟨_, _, _, h, _⟩ => nomatch h⟩
      | ok prompt =>
        constructor
        · intro h
          exact ⟨rfl, rfl, prompt, rfl, (Except.ok.inj h).symm⟩
        · rintro ⟨-, -, prompt', hprompt, rfl⟩
          cases hprompt
          rfl

end Survey

/-- A repository without a fault can be surveyed. -/
theorem Repository.validate_eq_ok {r : Repository} (h : (Validation.fault? r).isNone) {room : Nat} :
    r.validate room = .ok () :=
  validate_eq_ok_iff_fault?.2 (Option.isNone_iff_eq_none.1 h)

end CodeSurvey
