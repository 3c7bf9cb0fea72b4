/-
# The progress of a run

The stages that come first are done one after the other, and what the last stage reports
before it is done is no more than its parts (`Survey.parts_workUnder`). The quality of the
files and their graph are jobs that run at the same time as others, but each of them is the
only one to report its own stage, and does so to the end, whether it fails or not
(`Survey.Finishes`). So when all the work is done, the latest report of every stage but the
last is that it is done (`Survey.latest_workUnder`), whatever failed on the way and in
whatever order the jobs took their steps.

From the first of these follows that one hundred is not announced before all the work is done
(`Survey.announcements_of_prefix`), and from the second that it is announced then
(`Survey.announcements_of_completed`).
-/

import CodeSurvey.Proofs.Survey.Announcements
import CodeSurvey.Proofs.Survey.Schedule

namespace CodeSurvey

/-- What jobs report of a stage is an interleaving of what each of them reports of it. -/
theorem Pool.reports_run {χ α : Type} (schedule : List Nat) (shared : χ)
    (bodies : List (χ → Recorded α)) (stage : String) :
    Interleaves (bodies.map fun body => (body shared).reports stage)
      ((run schedule shared bodies).reports stage) :=
  filterMap_entries_run (Entry.report? stage) schedule shared bodies

namespace Survey

variable {st : Stages}

theorem reports_complainOfGraph (stage : String) (f : Failure) :
    (complainOfGraph f).reports stage = [] := by
  cases f <;> rfl

theorem reports_runInferredGraph (h : st.Unreporting) (files : List SourceFile) (reason : String)
    (f : Failure) (stage : String) : (runInferredGraph st files reason f).reports stage = [] := by
  rw [runInferredGraph, Recorded.reports_bind, (h.inferredGraph files reason f).reports_eq_nil]
  cases (st.inferredGraph files reason f).outcome.value <;> rfl

/-- Whether a computation reports one stage alone, and lastly that it is done. -/
structure Finishes {α : Type} (stage : String) (x : Recorded α) : Prop where
  others : ∀ other, stage ≠ other → x.reports other = []
  done : (x.reports stage).getLast? = some hundred

/-- A computation that reports no other stage finishes one by completing it. -/
theorem finishes_of_complete {α : Type} {stage : String} {x : Recorded α}
    (h : ∀ other, stage ≠ other → x.reports other = []) (label : String) :
    Finishes stage (x >>= fun a => complete stage label >>= fun _ => pure a) := by
  refine ⟨fun other hne => ?_, ?_⟩
  · rw [Recorded.reports_bind, h other hne, Recorded.reports_bind, reports_complete,
      if_neg (by simpa using hne)]
    rfl
  · rw [Recorded.reports_bind, Recorded.reports_bind, reports_complete, if_pos (by simp),
      Recorded.reports_pure, List.append_nil]
    exact List.getLast?_concat ..

/-- The quality of some files is reported to the end. -/
theorem finishes_runQuality (h : st.Unreporting) (files : List SourceFile) :
    Finishes "quality" (runQuality st files) := by
  refine finishes_of_complete (fun other hne => ?_) _
  have hcompute := Attempt.reports_advancing (h.quality files) hne
  rw [Attempt.reports_guarded]
  refine Attempt.reports_bind_eq_nil rfl fun _ => ?_
  exact Attempt.reports_bind_eq_nil (hcompute _) fun _ =>
    Attempt.reports_bind_eq_nil rfl fun _ => rfl

/-- The graph of some files, or what stands for it, before it is reported to be done. -/
def drawGraph (st : Stages) (files : List SourceFile) : Recorded DependencyGraph :=
  let label := "Detecting architecture patterns"
  ((st.graph files).advancing Stages.architecture fun _ _ => label).outcome >>= fun outcome =>
    match outcome with
    | .ok g => pure g
    | .error f => complainOfGraph f >>= fun _ => runInferredGraph st files (reasonFor f) f

theorem runArchitecture_eq (st : Stages) (files : List SourceFile) :
    runArchitecture st files = do
      let graph ← drawGraph st files
      complete Stages.architecture "Detected architecture patterns"
      return graph := by
  rw [runArchitecture, drawGraph, bind_assoc]
  congr 1
  funext outcome
  cases outcome with
  | ok g => rfl
  | error f => exact (bind_assoc ..).symm

theorem reports_drawGraph (h : st.Unreporting) (files : List SourceFile) {stage : String}
    (hne : "architecture" ≠ stage) : (drawGraph st files).reports stage = [] := by
  have hgraph := Attempt.reports_advancing (h.graph files) hne fun _ _ =>
    "Detecting architecture patterns"
  rw [drawGraph, Recorded.reports_bind]
  refine List.append_eq_nil_iff.2 ⟨hgraph, ?_⟩
  split
  · rfl
  · rw [Recorded.reports_bind, reports_complainOfGraph, reports_runInferredGraph h]
    rfl

/-- The graph of some files is reported to the end. -/
theorem finishes_runArchitecture (h : st.Unreporting) (files : List SourceFile) :
    Finishes "architecture" (runArchitecture st files) := by
  rw [runArchitecture_eq]
  exact finishes_of_complete (fun _ hne => reports_drawGraph h files hne) _

@[simp] theorem reports_runAnalyzer (shared : AnalyzerContext) (a : Analyzer) (stage : String) :
    (runAnalyzer shared a).reports stage = [] := by
  rw [runAnalyzer, Recorded.reports_bind, Attempt.reports_guarded]
  rfl

theorem reports_runSummary (h : st.Unreporting) (prompt : Option String) (stage : String) :
    (runSummary st prompt).reports stage = [] := by
  rw [runSummary]
  cases hanswer : answer? st prompt with
  | none => rfl
  | some answer =>
    obtain ⟨generate, hgenerate, hprompt⟩ := Option.bind_eq_some_iff.1 hanswer
    obtain ⟨asked, -, rfl⟩ := Option.map_eq_some_iff.1 hprompt
    show (_ >>= _ : Recorded _).reports stage = _
    rw [Recorded.reports_bind, (h.summarize generate hgenerate asked).reports_eq_nil]
    cases (generate asked).outcome.value <;> rfl

/-- What the first stages of a run report, in order. -/
def opening : List (String × Binary64) :=
  [("init", hundred), ("repoInfo", Binary64.ofInt 25), ("repoInfo", hundred), ("files", hundred),
    ("commits", hundred), ("contributors", hundred), ("pr", hundred), ("dependencies", hundred)]

/-- What the first stages of a run report of a stage. -/
def openingOf (stage : String) : List Binary64 :=
  opening.flatMap fun r => if r.1 == stage then [r.2] else []

theorem reports_runPreparation (h : st.Unreporting) (c : Classification) (r : Repository)
    (stage : String) :
    (runPreparation st c r).reports stage =
      ["files", "commits", "contributors", "pr", "dependencies"].flatMap fun s =>
      if s == stage then [hundred] else [] := by
  simp only [runPreparation, Recorded.reports_bind, Attempt.reports_guarded,
    (h.files _).reports_eq_nil, (h.commits _).reports_eq_nil, (h.contributors _).reports_eq_nil,
    (h.declared _).reports_eq_nil,
    h.analyzers.reports_eq_nil, reports_inform, reports_complete, Recorded.reports_pure,
    List.nil_append, List.flatMap_cons, List.flatMap_nil]
  rfl

theorem reports_lateJobs (schedule : List Nat) (shared : AnalyzerContext) (x : Prepared)
    (stage : String) :
    (Pool.run schedule shared (lateJobs x)).reports stage = [] := by
  refine (Pool.reports_run schedule shared (lateJobs x) stage).eq_nil fun part hpart => ?_
  obtain ⟨job, hjob, rfl⟩ := List.mem_map.1 hpart
  obtain ⟨a, -, rfl⟩ := List.mem_map.1 hjob
  rw [Recorded.reports, entries_analyzerJob]
  exact reports_runAnalyzer shared a stage

theorem reports_conclude (h : st.Unreporting) (prompt : Option String) (x : Prepared) (e : Examined)
    (stage : String) :
    (conclude st prompt x e).reports stage =
      (reachSummary (runSummary st prompt).value).reports stage := by
  have hmetrics : (some <$> st.metrics (factsOf x e)).Unreporting :=
    (h.metrics _).bind fun _ => Attempt.unreporting_ofOutcome (.ok _)
  simp only [conclude, Recorded.reports_bind, reports_runSummary h, Attempt.reports_guarded,
    hmetrics.reports_eq_nil, Recorded.reports_pure, List.nil_append, List.append_nil]

theorem reports_runOpening (r : Repository) (stage : String) :
    (runOpening r).reports stage =
      [("init", hundred), ("repoInfo", Binary64.ofInt 25),
        ("repoInfo", hundred)].flatMap fun reached =>
        if reached.1 == stage then [reached.2] else [] := by
  simp only [runOpening, Recorded.reports_bind, reports_inform, reports_complete, reports_reach,
    List.nil_append, List.flatMap_cons, List.flatMap_nil, List.append_nil]

variable (schedule : Schedule) (c : Classification) (p : Parser) (r : Repository)
  (prompt : Option String)

theorem reports_runExaminationUnder (x : Prepared) (stage : String) :
    (runExaminationUnder schedule st c p x).reports stage =
      (Pool.run schedule.early (sharedEarly c p x) (earlyJobs st x)).reports stage ++
        ((reach "finalizing" "Computed structural signals" (Binary64.ofInt 25)).reports stage ++
          (reach "finalizing" "Generated findings" (Binary64.ofInt 60)).reports stage) := by
  simp only [runExaminationUnder, Recorded.reports_bind, reports_lateJobs, Recorded.reports_pure,
    List.nil_append, List.append_nil]

/-- What a run reports of a stage: what the first stages report of it, what the first jobs do, and
what the last stage does. -/
theorem reports_workUnder (h : st.Unreporting) (stage : String) :
    ∃ summary, (workUnder schedule st c p r prompt).reports stage =
      openingOf stage ++
        (Pool.run schedule.early (sharedEarly c p (runPreparation st c r).value)
          (earlyJobs st (runPreparation st c r).value)).reports stage ++
        ((reach "finalizing" "Computed structural signals" (Binary64.ofInt 25)).reports stage ++
          (reach "finalizing" "Generated findings" (Binary64.ofInt 60)).reports stage ++
          (reachSummary summary).reports stage) := by
  refine ⟨(runSummary st prompt).value, ?_⟩
  simp only [workUnder, studyUnder, Recorded.reports_bind, reports_runOpening,
    reports_runPreparation h, reports_runExaminationUnder, Recorded.reports_pure,
    reports_conclude h, List.append_nil, List.append_assoc,
    openingOf, opening, reports_reach, List.flatMap_cons, List.flatMap_nil]

/-- Of the first jobs, only those for the quality of the files and for their
graph report any stage. -/
theorem interleaves_reports_earlyJobs (h : st.Unreporting) (places : List Nat)
    (shared : AnalyzerContext) (x : Prepared) (stage : String) :
    ∃ others, (∀ part ∈ others, part = []) ∧
      Interleaves
        ((runQuality st x.analyzable).reports stage ::
          (runArchitecture st x.analyzable).reports stage :: others)
        ((Pool.run places shared (earlyJobs st x)).reports stage) := by
  have hreports := Pool.reports_run places shared (earlyJobs st x) stage
  have hparts : ((earlyJobs st x).map fun job => (job shared).reports stage) =
      ((earlyJobs st x).map fun job => (job shared).entries).map (reportsOf stage) := by
    rw [List.map_map]
    rfl
  rw [hparts, entries_earlyJobs, List.map_append, List.map_map] at hreports
  refine ⟨_, fun part hpart => ?_, hreports⟩
  rcases List.mem_cons.1 hpart with rfl | hpart
  · exact (Attempt.reports_guarded ..).trans (h.coupling _ _).reports_eq_nil
  · obtain ⟨a, -, rfl⟩ := List.mem_map.1 hpart
    exact reports_runAnalyzer shared a stage

/-- The first jobs report no stage but those two. -/
theorem reports_earlyJobs_of_ne (h : st.Unreporting) (places : List Nat) (shared : AnalyzerContext)
    (x : Prepared) {stage : String} (hquality : "quality" ≠ stage)
    (hgraph : "architecture" ≠ stage) :
    (Pool.run places shared (earlyJobs st x)).reports stage = [] := by
  obtain ⟨others, hothers, hreports⟩ := interleaves_reports_earlyJobs h places shared x stage
  refine hreports.eq_nil fun part hpart => ?_
  rcases List.mem_cons.1 hpart with rfl | hpart
  · exact (finishes_runQuality h _).others _ hquality
  · rcases List.mem_cons.1 hpart with rfl | hpart
    · exact (finishes_runArchitecture h _).others _ hgraph
    · exact hothers part hpart

/-- The first jobs report those two to the end. -/
theorem latest_earlyJobs (h : st.Unreporting) (places : List Nat) (shared : AnalyzerContext)
    (x : Prepared) {stage : String} (hstage : "quality" = stage ∨ "architecture" = stage) :
    ((Pool.run places shared (earlyJobs st x)).reports stage).getLast? = some hundred := by
  obtain ⟨others, hothers, hreports⟩ := interleaves_reports_earlyJobs h places shared x stage
  have hquality := finishes_runQuality h x.analyzable
  have hgraph := finishes_runArchitecture h x.analyzable
  -- Either of the two jobs is the only one to report its stage, so what comes of all of
  -- them is what it reports.
  rcases hstage with rfl | rfl
  · have hafter : ∀ other ∈ (runArchitecture st x.analyzable).reports "quality" :: others,
        other = [] := by
      intro other hother
      rcases List.mem_cons.1 hother with rfl | hother
      · exact hgraph.others _ (by decide)
      · exact hothers other hother
    have hlone := @Interleaves.eq_of_lone _ [] _ _ _ hreports (fun _ hother =>
      absurd hother List.not_mem_nil) hafter
    rw [hlone]
    exact hquality.done
  · have hbefore : ∀ other ∈ [(runQuality st x.analyzable).reports "architecture"], other = [] := by
      intro other hother
      rw [List.mem_singleton.1 hother]
      exact hquality.others _ (by decide)
    have hlone := @Interleaves.eq_of_lone _ [_] _ _ _ hreports hbefore hothers
    rw [hlone]
    exact hgraph.done

theorem reports_reachSummary_subset (summary : Option String) (stage : String) :
    (reachSummary summary).reports stage = [] ∨
      (reachSummary summary).reports stage =
        (reach "finalizing" "Generated summary" (Binary64.ofInt 85)).reports stage := by
  rw [reachSummary]
  split
  · exact .inr rfl
  · exact .inl rfl

/-- A run reports no more of the last stage than its parts. -/
theorem parts_workUnder (h : st.Unreporting) :
    ∀ y ∈ (workUnder schedule st c p r prompt).reports Tracker.finalStage,
      y ∈ Tracker.finalParts := by
  obtain ⟨summary, hreports⟩ := reports_workUnder schedule c p r prompt h Tracker.finalStage
  have hopening : openingOf Tracker.finalStage = [] := rfl
  rw [hreports, hopening, reports_earlyJobs_of_ne h _ _ _ (by decide) (by decide), reports_reach,
    reports_reach, if_pos (by rfl), if_pos (by rfl)]
  intro y hy
  rcases reports_reachSummary_subset summary Tracker.finalStage with hnone | hsome
  · rw [hnone] at hy
    exact List.mem_append_left [Binary64.ofInt 85] hy
  · rwa [hsome, reports_reach, if_pos (by rfl)] at hy

/-- The latest report of each stage but the last is that it is done. -/
theorem latest_workUnder (h : st.Unreporting) {stage : String}
    (hstage : stage ∈ Tracker.surveyStages.map Prod.fst) (hne : Tracker.finalStage ≠ stage) :
    ((workUnder schedule st c p r prompt).reports stage).getLast? = some hundred := by
  obtain ⟨summary, hreports⟩ := reports_workUnder schedule c p r prompt h stage
  have hlast : ∀ label x, (reach "finalizing" label x).reports stage = [] := fun label x => by
    rw [reports_reach]
    exact if_neg (mt beq_iff_eq.1 hne)
  have hsummary : (reachSummary summary).reports stage = [] :=
    (reports_reachSummary_subset summary stage).elim id fun hsome => hsome.trans (hlast ..)
  rw [hreports, hlast, hlast, hsummary, List.append_nil, List.append_nil, List.append_nil]
  by_cases hjob : "quality" = stage ∨ "architecture" = stage
  · have hopening : openingOf stage = [] := by rcases hjob with rfl | rfl <;> rfl
    rw [hopening, List.nil_append]
    exact latest_earlyJobs h _ _ _ hjob
  · rw [not_or] at hjob
    rw [reports_earlyJobs_of_ne h _ _ _ hjob.1 hjob.2, List.append_nil]
    have hopening : ∀ s ∈ Tracker.surveyStages.map Prod.fst, "quality" ≠ s → "architecture" ≠ s →
        Tracker.finalStage ≠ s → (openingOf s).getLast? = some hundred := by decide +kernel
    exact hopening stage hstage hjob.1 hjob.2 hne

/-- A survey is not finished before all the work is done. -/
theorem unfinished_workUnder (h : st.Unreporting) :
    Tracker.Unfinished (callsOf (workUnder schedule st c p r prompt).entries) := fun y hy =>
  parts_workUnder schedule c p r prompt h y (by rwa [Recorded.reports, reportsOf_eq])

/-- What is announced of a journal at any moment before the work of a run is done. -/
theorem announcements_of_prefix (h : st.Unreporting) {sofar : List Entry}
    (hsofar : sofar <+: (workUnder schedule st c p r prompt).entries) :
    ∀ a ∈ announcements sofar, 1 ≤ a.percent ∧ a.percent < 100 := by
  obtain ⟨rest, hrest⟩ := hsofar
  have hunfinished : Tracker.Unfinished (callsOf sofar) := by
    have hwhole := unfinished_workUnder schedule c p r prompt h
    rw [← hrest, callsOf_append] at hwhole
    exact hwhole.of_append
  have hlast := Tracker.last_of_unfinished hunfinished
  have hle := (Tracker.Consistent.runOf (t := Tracker.initial) rfl
    (callsOf sofar)).announced_le_last
  intro a ha
  have hpositive := (announcements_increasing sofar).2 a ha
  rw [announcements_eq] at ha
  have := hle a ha
  omega

/-- When all the work of a run is done, the completion of the last stage is
announced as one hundred. -/
theorem announcements_of_completed (h : st.Unreporting) (label note : String) :
    announcements ((workUnder schedule st c p r prompt).entries ++
        [.progress "finalizing" label hundred, .note .info note]) =
      announcements (workUnder schedule st c p r prompt).entries ++ [⟨label, 100⟩] := by
  rw [announcements_eq, announcements_eq, callsOf_append]
  refine Tracker.announced_of_completed (unfinished_workUnder schedule c p r prompt h)
    (fun w hw hne => ?_) label
  rw [latestReport?_callsOf]
  exact latest_workUnder schedule c p r prompt h (List.mem_map_of_mem hw) (Ne.symm hne)

/-- **The progress of a whole run.** A run gives a survey exactly if the repository can be surveyed
and neither the clock nor the prompt fails it. Whichever stages fail and in whatever order the jobs
take their steps, the journal of a run that gives a survey is that of all the work and then the
completion of the last stage. At every moment before the work is done, what has been announced lies
between one and ninety-nine; the completion is announced as one hundred. So the percentages increase
strictly, and one hundred comes once, at the end.

The stages need not be those of the library (`Stages.unreporting_standard`), and without a schedule
the run is that of the stages in order (`runUnder_nil`). -/
theorem runUnder_announces (h : st.Unreporting) :
    ((∃ x, runUnder schedule st c p r = .ok x) ↔
      r.validate st.room = .ok () ∧ st.deadline = .ok () ∧
        ∃ prompt, promptUnder schedule st c p r = .ok prompt) ∧
    ∀ x, runUnder schedule st c p r = .ok x →
      ∃ prompt note, promptUnder schedule st c p r = .ok prompt ∧
        x.entries = (workUnder schedule st c p r prompt).entries ++
          [.progress "finalizing" "Analysis complete" hundred, .note .info note] ∧
        (∀ sofar, sofar <+: (workUnder schedule st c p r prompt).entries →
          ∀ a ∈ announcements sofar, 1 ≤ a.percent ∧ a.percent < 100) ∧
        announcements x.entries =
          announcements (workUnder schedule st c p r prompt).entries ++
            [⟨"Analysis complete", 100⟩] ∧
        ((announcements x.entries).map (·.percent)).Pairwise (· < ·) := by
  refine ⟨⟨?_, ?_⟩, fun x hx => ?_⟩
  · rintro ⟨x, hx⟩
    obtain ⟨hvalid, hclock, prompt, hprompt, -⟩ := runUnder_eq_ok_iff.1 hx
    exact ⟨hvalid, hclock, prompt, hprompt⟩
  · rintro ⟨hvalid, hclock, prompt, hprompt⟩
    exact ⟨_, runUnder_eq_ok_iff.2 ⟨hvalid, hclock, prompt, hprompt, rfl⟩⟩
  · obtain ⟨-, -, prompt, hprompt, rfl⟩ := runUnder_eq_ok_iff.1 hx
    exact ⟨prompt, _, hprompt, rfl, fun _ => announcements_of_prefix schedule c p r prompt h,
      announcements_of_completed schedule c p r prompt h .., (announcements_increasing _).1⟩

/-- A run in which almost every stage fails, the quality of the files after one of two is scored and
their graph when its time is over, while the jobs for the two take turns. -/
theorem runUnder_announces_of_failures :
    let stages : Stages :=
      { files := fun _ => throw .noParse
        commits := fun _ => throw .noParse
        contributors := fun _ => throw .noParse
        declared := fun _ => throw .noParse
        analyzers := throw .noParse
        quality := fun _ => do
          Recorded.tell (.advance 1 2)
          throw .noParse
        graph := fun _ => do
          Recorded.tell (.advance 1 2)
          throw (.deadlineExceeded Stages.architecture (Binary64.ofInt 5))
        inferredGraph := fun _ _ _ => throw .noParse
        coupling := fun _ _ => throw .noParse
        metrics := fun _ => throw .noParse
        summarize := some fun _ => pure "Two files." }
    let schedule : Schedule := ⟨[1, 0, 0, 1, 1, 1, 0, 0], []⟩
    let p : Parser := { tree := fun _ _ => .error .noParse }
    let r : Repository := { files := [{ path := "src/app.py" }, { path := "src/lib.py" }] }
    stages.Unreporting ∧ r.validate stages.room = .ok () ∧
      ∃ x prompt, runUnder schedule stages .standard p r = .ok x ∧
        promptUnder schedule stages .standard p r = .ok (some prompt) ∧
        (∀ a ∈ announcements (workUnder schedule stages .standard p r (some prompt)).entries,
          1 ≤ a.percent ∧ a.percent < 100) ∧
        announcements x.entries =
          announcements (workUnder schedule stages .standard p r (some prompt)).entries ++
            [⟨"Analysis complete", 100⟩] := by
  intro stages schedule p r
  have hunreporting : stages.Unreporting := by
    refine ⟨fun _ => rfl, fun _ => rfl, fun _ => rfl, fun _ => rfl, rfl, fun _ => rfl, fun _ => rfl,
      fun _ _ _ => rfl, fun _ _ => rfl, fun _ => rfl, fun generate hgenerate prompt => ?_⟩
    rw [← Option.some.inj (Option.mem_def.1 hgenerate)]
    rfl
  have hvalid : r.validate stages.room = .ok () := Repository.validate_eq_ok (by decide +kernel)
  obtain ⟨prompt, hprompt⟩ : ∃ prompt, promptUnder schedule stages .standard p r =
      .ok (some prompt) := by
    let s := (studyUnder schedule stages .standard p r).value
    have hnumbers : ∀ f ∈ s.prepared.analyzable,
        Numeral.isEndless (Prompt.numberOf s.examined.quality f) = false := by
      decide +kernel
    have hwritable : Prompt.IsWritable stages.room r s.prepared.analyzable s.examined.quality :=
      Prompt.isWritable_of_no_metadata rfl hnumbers
    obtain ⟨prompt, hprompt⟩ := (Prompt.exists_text_iff s.examined.graph).2 hwritable
    exact ⟨prompt, congrArg (some <$> ·) hprompt⟩
  obtain ⟨hruns, hannounces⟩ := runUnder_announces schedule .standard p r hunreporting
  obtain ⟨x, hx⟩ := hruns.2 ⟨hvalid, rfl, some prompt, hprompt⟩
  obtain ⟨prompt', note, hprompt', -, hbefore, hannounced, -⟩ := hannounces x hx
  obtain rfl := Except.ok.inj (hprompt'.symm.trans hprompt)
  exact ⟨hunreporting, hvalid, x, prompt, hx, hprompt, hbefore _ (List.prefix_refl _), hannounced⟩

end Survey
end CodeSurvey
