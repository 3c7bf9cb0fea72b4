/-
# Jobs in any order

What a run finds does not depend on the schedule of its jobs (`Survey.value_workUnder`). Its
warnings are those of the stages before the jobs, an interleaving of what the jobs of the
first phase warn of, an interleaving of what the other jobs warn of, and those of the stages
after them (`Survey.warnings_workUnder`); without a schedule the jobs warn one after another.
So from one schedule to another warnings move, but each job's own warnings keep their order,
and none is lost or given twice.

The one thing that could differ is what the clock reads, since the graph is built while other jobs
run. As long as the deadline of the graph does not stop it, the readings leave no trace
(`Survey.runUnder_standard_congr`).
-/

import CodeSurvey.Proofs.DependencyGraph.Deadline
import CodeSurvey.Proofs.Survey.Progress

namespace CodeSurvey

/-- What jobs warn of is an interleaving of what each of them warns of. -/
theorem Pool.warnings_run {χ α : Type} (schedule : List Nat) (shared : χ)
    (bodies : List (χ → Recorded α)) :
    Interleaves (bodies.map fun body => (body shared).warnings)
      (run schedule shared bodies).warnings :=
  filterMap_entries_run _ schedule shared bodies

/-- Jobs that run one after another warn one after another. -/
theorem Pool.warnings_run_nil {χ α : Type} (shared : χ) (bodies : List (χ → Recorded α)) :
    (run [] shared bodies).warnings = (bodies.map fun body => (body shared).warnings).flatten := by
  rw [run_nil, Recorded.warnings_mapM, List.flatMap_def]

namespace Survey

section Schedules

variable (schedule : Schedule) (st : Stages) (c : Classification) (p : Parser) (r : Repository)
  (prompt : Option String)

/-- What the jobs of the first phase find. -/
def foundEarly (x : Prepared) : Examined :=
  ((earlyJobs st x).map fun job => (job (sharedEarly c p x)).value).foldl Examined.put .nothing

/-- What each job of the first phase warns of. -/
def earlyWarnings (x : Prepared) : List (List Warning) :=
  (earlyJobs st x).map fun job => (job (sharedEarly c p x)).warnings

/-- What each of the other jobs warns of. -/
def lateWarnings (x : Prepared) : List (List Warning) :=
  (lateJobs x).map fun job => (job (sharedLate c p x (foundEarly st c p x))).warnings

/-- What all the work comes to does not depend on the schedule. -/
theorem value_workUnder :
    (workUnder schedule st c p r prompt).value = (workUnder {} st c p r prompt).value := by
  simp only [workUnder, Recorded.value_bind, value_studyUnder]

/-- The jobs warn as they take turns, those of the first phase before the others. -/
theorem warnings_runExaminationUnder (x : Prepared) :
    (runExaminationUnder schedule st c p x).warnings =
      (Pool.run schedule.early (sharedEarly c p x) (earlyJobs st x)).warnings ++
        (Pool.run schedule.late (sharedLate c p x (foundEarly st c p x))
          (lateJobs x)).warnings := by
  simp only [runExaminationUnder, Recorded.warnings_bind, Pool.value_run, warnings_reach,
    Recorded.warnings_pure, List.nil_append, List.append_nil]
  rfl

/-- What a run warns of until its work is done: what the stages before the jobs warn of, the jobs,
and the stages after them. -/
theorem warnings_workUnder :
    let x := (runPreparation st c r).value
    (workUnder schedule st c p r prompt).warnings =
      (runPreparation st c r).warnings ++
        ((Pool.run schedule.early (sharedEarly c p x) (earlyJobs st x)).warnings ++
          ((Pool.run schedule.late (sharedLate c p x (foundEarly st c p x))
            (lateJobs x)).warnings ++
            (conclude st prompt x (runExamination st c p x).value).warnings)) := by
  simp only [workUnder, studyUnder, Recorded.warnings_bind, Plan.warnings_runOpening,
    Recorded.warnings_pure, Recorded.value_bind, Recorded.value_pure, warnings_runExaminationUnder,
    value_runExaminationUnder, List.nil_append, List.append_nil, List.append_assoc]

end Schedules

/-- Whether two lists of warnings are the same but for the turns that the jobs of each phase take in
the second one: in the first one the jobs warn one after another. -/
def WarnsInTurns (early late : List (List Warning)) (ws ws' : List Warning) : Prop :=
  ∃ before turns turns' after,
    ws = before ++ (early.flatten ++ (late.flatten ++ after)) ∧
      ws' = before ++ (turns ++ (turns' ++ after)) ∧
      Interleaves early turns ∧ Interleaves late turns'

/-- No warning is lost or given twice. -/
theorem WarnsInTurns.perm {early late : List (List Warning)} {ws ws' : List Warning}
    (h : WarnsInTurns early late ws ws') : ws'.Perm ws := by
  obtain ⟨before, turns, turns', after, rfl, rfl, hturns, hturns'⟩ := h
  exact .append_left before (hturns.perm.append (hturns'.perm.append_right after))

/-- Each job's warnings keep their order. -/
theorem WarnsInTurns.sublist {early late : List (List Warning)} {ws ws' : List Warning}
    (h : WarnsInTurns early late ws ws') {own : List Warning} (hown : own ∈ early ++ late) :
    own.Sublist ws' := by
  obtain ⟨before, turns, turns', after, rfl, rfl, hturns, hturns'⟩ := h
  rcases List.mem_append.1 hown with hown | hown
  · exact ((hturns.sublist hown).trans (List.sublist_append_left ..)).trans
      (List.sublist_append_right ..)
  · exact (((hturns'.sublist hown).trans (List.sublist_append_left ..)).trans
      (List.sublist_append_right ..)).trans
      (List.sublist_append_right ..)

section Clocks

variable (schedule : Schedule) (c : Classification) (p : Parser) (s : Settings) (now : Moment)

/-- A run depends on the graph of the files that it examines, and not on what the stage
would make of others. -/
theorem runUnder_withGraph (st : Stages) (r : Repository)
    {graph : List SourceFile → Attempt DependencyGraph}
    (h : graph (runPreparation st c r).value.analyzable =
        st.graph (runPreparation st c r).value.analyzable) :
    runUnder schedule { st with graph := graph } c p r = runUnder schedule st c p r := by
  let x := (runPreparation st c r).value
  let st' := { st with graph := graph }
  have hgraph : runArchitecture st' x.analyzable = runArchitecture st x.analyzable := by
    rw [runArchitecture, runArchitecture]
    show (graph x.analyzable |>.advancing ..).outcome >>= _ = _
    rw [h]
    rfl
  -- The graph is built in one of the jobs and nowhere else.
  have hjobs : earlyJobs st' x = earlyJobs st x := by
    rw [earlyJobs, earlyJobs, hgraph]
    rfl
  have hexamination : runExaminationUnder schedule st' c p x =
      runExaminationUnder schedule st c p x := by
    rw [runExaminationUnder, runExaminationUnder, hjobs]
  have hlast : (runExaminationUnder schedule st' c p x >>= fun e => pure (Studied.mk x e)) =
      runExaminationUnder schedule st c p x >>= fun e => pure (Studied.mk x e) := by
        rw [hexamination]
  have hstudy : studyUnder schedule st' c p r = studyUnder schedule st c p r :=
    Recorded.bind_congr <| Recorded.bind_congr hlast
  exact runUnder_congr rfl rfl hstudy rfl rfl rfl

/-- The files that the library analyzes of a repository: those that are prepared, or all of them if
the preparation fails. -/
def analyzedFiles (r : Repository) : List SourceFile :=
  ((Preparation.files s.limits.maxFileSize s.excluded r.files).settled r.files).filter fun f =>
    c.isAnalyzable f.path

/-- Whether the deadline of the graph of some files passes before the graph is built. -/
def deadlinePasses (clock : Clock) (files : List SourceFile) : Bool :=
  let (start, clock) := clock.tick
  let deadline := Deadline.start Stages.architecture (some s.limits.architectureTimeout) start
  GraphBuild.isStopped c (scanImports p) s.limits (some (deadline, clock)) files

variable (readers : Manifest.Readers)

/-- If the deadline does not pass, the graph is built as without one. -/
theorem graph_standard {clock : Clock} {files : List SourceFile}
    (h : deadlinePasses c p s clock files = false) :
    (Stages.standard c p s clock now readers).graph files =
      GraphBuild.build c p s.limits none files :=
  GraphBuild.buildWith_of_not_stopped c (scanImports p) h

theorem analyzable_standard (generate : Option (String → Except Failure String)) (clock : Clock)
    (r : Repository) :
    (runPreparation ((Stages.standard c p s clock now readers).summarizedBy generate) c
      r).value.analyzable =
      analyzedFiles c s r := by
  rw [runPreparation, Recorded.value_bind, Attempt.value_guarded]
  rfl

/-- Runs under clocks by which the deadline does not pass are the same. -/
theorem runUnder_standard_congr (generate : Option (String → Except Failure String))
    {clock clock' : Clock} {r : Repository}
    (h : deadlinePasses c p s clock (analyzedFiles c s r) = false)
    (h' : deadlinePasses c p s clock' (analyzedFiles c s r) = false) :
    runUnder schedule ((Stages.standard c p s clock' now readers).summarizedBy generate) c p r =
      runUnder schedule
        ((Stages.standard c p s clock now readers).summarizedBy generate) c p r := by
  refine runUnder_withGraph schedule c p
    ((Stages.standard c p s clock now readers).summarizedBy generate) r ?_
  rw [analyzable_standard]
  exact (graph_standard c p s now readers h').trans (graph_standard c p s now readers h).symm

/-- A run under some schedule gives the survey of a run whose jobs run one after another, but for
the order of the warnings; or both are abandoned alike. -/
theorem runUnder_commutes (st : Stages) {r : Repository} (hvalid : r.validate st.room = .ok ())
    (hclock : st.deadline = .ok ()) :
    let x := (runPreparation st c r).value
    (∀ f, promptUnder {} st c p r = .error f → run st c p r = .error f ∧
      runUnder schedule st c p r = .error f) ∧ ∀ prompt, promptUnder {} st c p r = .ok prompt →
        ∃ a b, run st c p r = .ok a ∧ runUnder schedule st c p r = .ok b ∧
          b.value = { a.value with warnings := b.value.warnings } ∧
          WarnsInTurns (earlyWarnings st c p x) (lateWarnings st c p x) a.value.warnings
            b.value.warnings ∧
          b.entries = (workUnder schedule st c p r prompt).entries ++
            [.progress "finalizing" "Analysis complete" hundred,
              .note .info (closingText r b.value b.value.warnings.length)] := by
  intro x
  have hprompts : promptUnder schedule st c p r = promptUnder {} st c p r := by
    rw [promptUnder_eq, promptUnder_eq]
  rw [← runUnder_nil]
  refine ⟨fun f hf => ⟨?_, ?_⟩, fun prompt hprompt => ?_⟩
  · rw [runUnder, hvalid, hclock, hf]
    rfl
  · rw [runUnder, hvalid, hclock, hprompts, hf]
    rfl
  · refine ⟨_, _, runUnder_eq_ok_iff.2 ⟨hvalid, hclock, prompt, hprompt, rfl⟩,
      runUnder_eq_ok_iff.2 ⟨hvalid, hclock, prompt, hprompts.trans hprompt, rfl⟩, ?_, ?_, rfl⟩
    · rw [value_workUnder schedule]
    · refine ⟨_, _, _, _, ?_, warnings_workUnder schedule st c p r prompt, Pool.warnings_run ..,
        Pool.warnings_run ..⟩
      show (workUnder {} st c p r prompt).warnings = _
      rw [warnings_workUnder {} st c p r, Pool.warnings_run_nil, Pool.warnings_run_nil]
      rfl

/-- **Jobs commute.** With the stages of the library, and a generator of summaries or none, take a
run whose jobs run one after another and one whose jobs take their steps in any order, under clocks
by which the deadline of the graph does not pass. Both give a survey, and the surveys are the same
but for the order of their warnings: there each job's own warnings keep their order, and none is
lost or given twice. The percentages that are announced still increase strictly, up to one hundred.

Only if a prompt for the generator cannot be written, both give none, for the same reason. -/
theorem jobs_commute (generate : Option (String → Except Failure String)) {clock clock' : Clock}
    {r : Repository} (hvalid : r.validate = .ok ())
    (hclock : deadlinePasses c p s clock (analyzedFiles c s r) = false)
    (hclock' : deadlinePasses c p s clock' (analyzedFiles c s r) = false) :
    let st := (Stages.standard c p s clock now readers).summarizedBy generate
    let st' := (Stages.standard c p s clock' now readers).summarizedBy generate
    let early := earlyWarnings st c p (runPreparation st c r).value
    let late := lateWarnings st c p (runPreparation st c r).value
    (∀ f, promptUnder {} st c p r = .error f →
      generate.isSome ∧ run st c p r = .error f ∧ runUnder schedule st' c p r = .error f) ∧
    ∀ prompt, promptUnder {} st c p r = .ok prompt →
      ∃ a b, run st c p r = .ok a ∧ runUnder schedule st' c p r = .ok b ∧
        b.value = { a.value with warnings := b.value.warnings } ∧
        WarnsInTurns early late a.value.warnings b.value.warnings ∧
        b.value.warnings.Perm a.value.warnings ∧
        (∀ own ∈ early ++ late, own.Sublist b.value.warnings) ∧
        ((announcements b.entries).map (·.percent)).Pairwise (· < ·) ∧
        ((announcements b.entries).map (·.percent)).getLast? = some 100 := by
  intro st st' early late
  have hunreporting : st.Unreporting := Stages.unreporting_standard c p s clock now readers generate
  have hsame : runUnder schedule st' c p r = runUnder schedule st c p r :=
    runUnder_standard_congr schedule c p s now readers generate hclock hclock'
  obtain ⟨hfails, hgives⟩ := runUnder_commutes schedule c p st hvalid rfl
  rw [hsame]
  refine ⟨fun f hf => ⟨?_, hfails f hf⟩, fun prompt hprompt => ?_⟩
  · cases generate with
    | none => exact nomatch hf
    | some answer => rfl
  · obtain ⟨a, b, ha, hb, hvalue, hturns, hentries⟩ := hgives prompt hprompt
    have hlast : ((announcements b.entries).map (·.percent)).getLast? = some 100 := by
      rw [hentries, announcements_of_completed schedule c p r prompt hunreporting, List.map_append]
      exact List.getLast?_concat ..
    exact ⟨a, b, ha, hb, hvalue, hturns, hturns.perm, fun own => hturns.sublist,
      (announcements_increasing _).1, hlast⟩

/-- Two files that do not parse, one of which is scored while imports are followed; the second clock
runs late, but the deadline does not pass. -/
theorem jobs_commute_of_two_files :
    let broken : SyntaxTree := .node { kind := "program", start := 0, stop := 1, broken := true } []
    let p : Parser := ⟨standardGrammars, fun _ _ => .ok broken⟩
    let r : Repository :=
      { files := [{ path := "src/a.js", content := some "x" },
        { path := "src/b.js", content := some "y" }] }
    let clock : Clock := [Binary64.zero]
    let clock' : Clock := [Binary64.zero, Binary64.ofInt 1, Binary64.ofInt 2]
    let schedule : Schedule := ⟨[1, 0, 1, 0, 0, 1, 3, 0, 2], [1, 0]⟩
    let now : Moment := { date := ⟨2024, 5, 1⟩ }
    r.validate = .ok () ∧
      deadlinePasses .standard p {} clock (analyzedFiles .standard {} r) = false ∧
      deadlinePasses .standard p {} clock' (analyzedFiles .standard {} r) = false ∧
      ∃ a b, run ((Stages.standard .standard p {} clock now).summarizedBy none) .standard
        p r = .ok a ∧
        runUnder schedule ((Stages.standard .standard p {} clock' now).summarizedBy none) .standard
          p r = .ok b ∧
        b.value = { a.value with warnings := b.value.warnings } ∧
          b.value.warnings.Perm a.value.warnings := by
  intro broken p r clock clock' schedule now
  have hvalid : r.validate = .ok () := Repository.validate_eq_ok (by decide +kernel)
  have hclock : deadlinePasses .standard p {} clock (analyzedFiles .standard {} r) = false := by
    decide +kernel
  have hclock' : deadlinePasses .standard p {} clock' (analyzedFiles .standard {} r) = false := by
    decide +kernel
  obtain ⟨-, hgives⟩ := jobs_commute schedule .standard p {} now {} none hvalid hclock hclock'
  obtain ⟨a, b, ha, hb, hvalue, -, hperm, -⟩ := hgives none rfl
  exact ⟨hvalid, hclock, hclock', a, b, ha, hb, hvalue, hperm⟩

end Clocks

end Survey
end CodeSurvey
