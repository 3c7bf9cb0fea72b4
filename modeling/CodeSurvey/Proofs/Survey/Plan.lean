/-
# What a run comes to

A run is made from stages, what is known about files, and a repository (`Plan`). Each stage reads
what the stages before it have settled on, so everything that a run gives is settled by a few
equations, one for each stage; and the warnings of the run are those that come through the
boundaries of its stages, one boundary after the other (`Plan.boundaries`). A stage that fails
contributes something neutral (`Plan.isNeutralWhereFailed`), and the boundaries of exactly the
stages that fail say so (`Plan.outcomes_boundaries`).

A run can also be abandoned (`Plan.Abandons`): the repository cannot be surveyed, the clock cannot
be started, or there is a generator and what its prompt is to show cannot be written
(`Prompt.exists_text_iff`). The last two happen outside of the boundaries.

`Plan.value_runStages` and `Plan.warnings_runStages` say that the stages in order come to this, and
`Plan.run_eq` that a run does, unless it is abandoned.
-/

import CodeSurvey.Proofs.Keyed
import CodeSurvey.Proofs.Outcome
import CodeSurvey.Proofs.Survey.Boundary

namespace CodeSurvey

namespace Prompt

variable {room : Nat} {r : Repository} {files : List SourceFile} {quality : List QualityMetric}

/-- The number that the line of a file shows: its complexity if it was measured,
and its size otherwise. -/
def numberOf (quality : List QualityMetric) (f : SourceFile) : Int :=
  ((Quality.find? f.path quality).map (·.complexity)).getD f.size

/-- Whether everything that a prompt is to show can be written. -/
structure IsWritable (room : Nat) (r : Repository) (files : List SourceFile)
    (quality : List QualityMetric) :
    Prop where
  name : ∀ v, telling? r ["full_name", "name"] = some v → ∃ s, v.written room = .ok s
  description : ∀ v, telling? r ["description"] = some v → ∃ s, v.written room = .ok s
  numbers : ∀ f ∈ (ranked quality files).take filesNamed,
    Numeral.isEndless (numberOf quality f) = false

theorem exists_saying_iff {names : List String} {otherwise : String} :
    (∃ s, saying room r names otherwise = .ok s) ↔
      ∀ v, telling? r names = some v → ∃ s, v.written room = .ok s := by
  unfold saying
  cases htelling : telling? r names with
  | none => simp
  | some v => cases hwritten : v.written room <;> simp [Except.mapError, hwritten]

theorem exists_written_iff {n : Int} :
    (∃ s, Numeral.written n = .ok s) ↔ Numeral.isEndless n = false := by
  unfold Numeral.written
  cases Numeral.isEndless n <;> simp

theorem exists_fileLine_iff {f : SourceFile} :
    (∃ s, fileLine quality f = .ok s) ↔ Numeral.isEndless (numberOf quality f) = false := by
  rw [← exists_written_iff, fileLine, numberOf]
  cases Quality.find? f.path quality with
  | none => cases h : Numeral.written f.size <;> simp [h]
  | some m => cases h : Numeral.written m.complexity <;> simp [h]

/-- **There is a prompt** exactly if everything that it is to show can be written. -/
theorem exists_text_iff (graph : DependencyGraph) :
    (∃ s, text room r files graph quality = .ok s) ↔ IsWritable room r files quality := by
  simp only [text, Outcome.bind_eq_ok, Outcome.mapM_eq_ok_iff]
  constructor
  · rintro ⟨-, name, hname, description, hdescription, lines, hlines, -⟩
    refine ⟨exists_saying_iff.1 ⟨name, hname⟩, exists_saying_iff.1 ⟨description, hdescription⟩,
      fun f hf => ?_⟩
    exact exists_fileLine_iff.1 (Outcome.exists_forall₂_iff.1 ⟨lines, hlines⟩ f hf)
  · intro h
    obtain ⟨name, hname⟩ := exists_saying_iff.2 h.name
    obtain ⟨description, hdescription⟩ := exists_saying_iff.2 h.description
    obtain ⟨lines, hlines⟩ :=
      Outcome.exists_forall₂_iff.2 fun f hf => exists_fileLine_iff.2 (h.numbers f hf)
    exact ⟨_, name, hname, description, hdescription, lines, hlines, rfl⟩

/-- Where the metadata says nothing, the numbers of the files are all that is to be written. -/
theorem isWritable_of_no_metadata (hmetadata : r.metadata = [])
    (hnumbers : ∀ f ∈ files, Numeral.isEndless (numberOf quality f) = false) :
    IsWritable room r files quality := by
  have htelling : ∀ names, telling? r names = none := by
    intro names
    rw [telling?, List.find?_eq_none]
    intro v hv
    obtain ⟨name, -, rfl⟩ := List.mem_map.1 hv
    rw [Repository.meta, hmetadata]
    exact Bool.false_ne_true
  refine ⟨fun v h => ?_, fun v h => ?_,
    fun f hf => hnumbers f (List.mem_mergeSort.1 (List.mem_of_mem_take hf))⟩
  · rw [htelling] at h
    cases h
  · rw [htelling] at h
    cases h

theorem saying_eq_error {names : List String} {otherwise : String} (e : Failure)
    (h : saying room r names otherwise = .error e) : ∃ fault, e = .ofUnwritable fault := by
  unfold saying at h
  split at h
  · rename_i v _
    cases hwritten : v.written room with
    | ok s => rw [hwritten] at h; cases h
    | error fault => rw [hwritten] at h; cases h; exact ⟨fault, rfl⟩
  · cases h

theorem map_written_eq_error {n : Int} {g : String → String} (e : Failure)
    (h : g <$> Numeral.written n = .error e) : ∃ fault, e = .ofUnwritable fault := by
  unfold Numeral.written at h
  split at h
  · cases h
    exact ⟨.endlessInteger, rfl⟩
  · cases h

theorem fileLine_eq_error (f : SourceFile) :
    ∀ e, fileLine quality f = .error e → ∃ fault, e = .ofUnwritable fault := by
  unfold fileLine
  cases Quality.find? f.path quality with
  | none => exact Outcome.of_bind_eq_error map_written_eq_error fun detail e => nofun
  | some m => exact Outcome.of_bind_eq_error map_written_eq_error fun detail e => nofun

/-- If there is no prompt, then because of a value that cannot be written. -/
theorem text_eq_error (graph : DependencyGraph) :
    ∀ e, text room r files graph quality = .error e → ∃ fault, e = .ofUnwritable fault :=
  Outcome.of_bind_eq_error saying_eq_error fun _ =>
    Outcome.of_bind_eq_error saying_eq_error fun _ =>
    Outcome.of_bind_eq_error (Outcome.of_mapM_eq_error fileLine_eq_error _) fun _ _ => nofun

end Prompt

/-- What a run is made from. -/
structure Plan where
  stages : Stages
  classification : Classification
  parser : Parser
  repository : Repository

namespace Plan

variable (x : Plan)

/-- The files as they are prepared, or as they stand in the repository. -/
def files : List SourceFile := (x.stages.files x.repository.files).settled x.repository.files

/-- The files that are analyzable. -/
def analyzable : List SourceFile := x.files.filter fun f => x.classification.isAnalyzable f.path

/-- The commits as they are prepared, or none. -/
def commits : List Commit := (x.stages.commits x.repository.commits).settled []

/-- Who contributed, or nobody. -/
def contributors : List Contributor := (x.stages.contributors x.commits).settled []

/-- What is declared, or nothing. -/
def declared : Declared := (x.stages.declared x.files).settled {}

/-- The analyzers that run, or none. -/
def analyzers : List Analyzer := x.stages.analyzers.settled []

/-- The quality of the analyzable files, or none. -/
def quality : List QualityMetric := (x.stages.quality x.analyzable).settled []

/-- The graph of the analyzable files, or what stands for it. -/
def graph : DependencyGraph := Survey.graphOf x.stages x.analyzable

/-- The coupled pairs, or none. -/
def coupling : List CouplingPair := (x.stages.coupling x.commits x.files).settled []

/-- What the analyzers of the first phase read. -/
def before : AnalyzerContext where
  classification := x.classification
  parser := x.parser
  files := x.analyzable
  commits := x.commits

/-- What the other analyzers read: also what the stages before have settled on. -/
def after : AnalyzerContext :=
  { x.before with quality := x.quality, graph := x.graph, coupling := x.coupling }

/-- The findings of an analyzer, which may fail, in the phase in which it runs. -/
def attempt (a : Analyzer) : Attempt (List Finding) :=
  .ofOutcome (a.findings (if a.phase ≤ 1 then x.before else x.after))

/-- Analyzers in the order in which they run: those of the first phase and then the others. -/
def inTurn (as : List Analyzer) : List Analyzer :=
  as.filter (·.phase ≤ 1) ++ as.filter (1 < ·.phase)

/-- What each analyzer found, or nothing, under its name. -/
def findings : List (String × List Finding) :=
  (inTurn x.analyzers).map fun a => (a.name, (x.attempt a).settled [])

/-- What the first stages come to. -/
def prepared : Survey.Prepared where
  files := x.files
  analyzable := x.analyzable
  commits := x.commits
  contributors := x.contributors
  declared := x.declared
  analyzers := x.analyzers

/-- What the repository is found to hold. -/
def examined : Survey.Examined where
  quality := x.quality
  graph := x.graph
  coupling := x.coupling
  findings := x.findings

/-- The prompt that a generator is asked to answer, if there is a generator; writing it may fail. -/
def prompt : Except Failure (Option String) :=
  Survey.promptOf x.stages x.repository x.prepared x.examined

/-- The prompt that a generator is asked to answer, if there is a generator and the
prompt can be written. -/
def asked : Option String := x.prompt.toOption.join

/-- What the metrics are derived from. -/
def facts : Metrics.Facts := Survey.factsOf x.prepared x.examined

/-- The boundary around an analyzer. -/
def boundaryOf (a : Analyzer) : Boundary := .around a.name (x.attempt a)

/-- The boundaries of the stages that prepare the repository. -/
def preparing : List Boundary :=
  [.around "files" (x.stages.files x.repository.files),
    .around "commits" (x.stages.commits x.repository.commits),
    .around "contributors" (x.stages.contributors x.commits),
    .around Declared.step (x.stages.declared x.files),
    .around "analyzers" x.stages.analyzers]

/-- The boundaries of the stages that examine it, before any analyzer. -/
def examining : List Boundary :=
  [.around Quality.step (x.stages.quality x.analyzable),
    Survey.graphBoundary x.stages x.analyzable,
    .around "coupling" (x.stages.coupling x.commits x.files)]

/-- The boundary around the metrics, which are the last stage. -/
def metricsBoundary : Boundary := .around "finalizing" (x.stages.metrics x.facts)

/-- The boundaries of all stages, in order. -/
def boundaries : List Boundary :=
  x.preparing ++ x.examining ++ (inTurn x.analyzers).map x.boundaryOf ++
    [Survey.summaryBoundary x.stages x.asked, x.metricsBoundary]

/-- The steps of all stages, in order, and whether the stage of each fails. -/
def outcomes : List (String × Bool) :=
  [("files", (x.stages.files x.repository.files).fails),
    ("commits", (x.stages.commits x.repository.commits).fails),
    ("contributors", (x.stages.contributors x.commits).fails),
    ("dependencies", (x.stages.declared x.files).fails),
    ("analyzers", x.stages.analyzers.fails),
    ("quality", (x.stages.quality x.analyzable).fails),
    ("architecture", (x.stages.graph x.analyzable).fails),
    ("coupling", (x.stages.coupling x.commits x.files).fails)] ++
  (inTurn x.analyzers).map (fun a => (a.name, (x.attempt a).fails)) ++
  [("summary", (Survey.answer? x.stages x.asked).any Attempt.fails),
    ("finalizing", (x.stages.metrics x.facts).fails)]

/-- What the run comes to. -/
def survey : Survey where
  graph := x.graph
  quality := x.quality
  coupling := x.coupling
  warnings := x.boundaries.flatMap Boundary.warnings
  metrics := (some <$> x.stages.metrics x.facts).settled none
  findings := x.findings
  contributors := x.contributors
  declared := x.declared
  summary := Survey.summaryOf x.stages x.asked
  asked := x.asked

/-- The run. -/
def run : Except Failure (Recorded Survey) :=
  Survey.run x.stages x.classification x.parser x.repository

/-- Whether each stage that fails contributes something neutral: the files as they stand in the
repository, an empty graph if not even edges can be inferred, and otherwise nothing. -/
structure IsNeutralWhereFailed : Prop where
  files : (x.stages.files x.repository.files).fails → x.files = x.repository.files
  commits : (x.stages.commits x.repository.commits).fails → x.commits = []
  contributors : (x.stages.contributors x.commits).fails → x.survey.contributors = []
  declared : (x.stages.declared x.files).fails → x.survey.declared = {}
  analyzers : x.stages.analyzers.fails → x.analyzers = []
  quality : (x.stages.quality x.analyzable).fails → x.survey.quality = []
  graph : ∀ f, (x.stages.graph x.analyzable).failure? = some f →
    (x.stages.inferredGraph x.analyzable (Survey.reasonFor f) f).fails →
      x.survey.graph = { fallback := true }
  coupling : (x.stages.coupling x.commits x.files).fails → x.survey.coupling = []
  findings : ∀ a ∈ x.analyzers, (x.attempt a).fails → (a.name, []) ∈ x.survey.findings
  summary : ∀ answer ∈ Survey.answer? x.stages x.asked, answer.fails → x.survey.summary = none
  metrics : (x.stages.metrics x.facts).fails → x.survey.metrics = none

/-- The analyzers that run are those given, perhaps in another order. -/
theorem inTurn_perm (as : List Analyzer) : (inTurn as).Perm as := by
  have hlate : (as.filter (1 < ·.phase)) = as.filter fun a => !decide (a.phase ≤ 1) := by
    refine List.filter_congr fun a _ => ?_
    rw [← decide_not, decide_eq_decide]
    exact Int.not_le.symm
  rw [inTurn, hlate]
  exact List.filter_append_perm _ as

/-- Analyzers with distinct names have their findings under distinct names. -/
theorem nodup_findings (h : (x.analyzers.map (·.name)).Nodup) :
    (x.findings.map Prod.fst).Nodup := by
  rw [findings, List.map_map]
  exact (((inTurn_perm x.analyzers).map (·.name)).nodup_iff).2 h

/-- Each stage that fails contributes something neutral. -/
theorem isNeutralWhereFailed : x.IsNeutralWhereFailed where
  files h := Attempt.settled_of_fails h _
  commits h := Attempt.settled_of_fails h _
  contributors h := Attempt.settled_of_fails h _
  declared h := Attempt.settled_of_fails h _
  analyzers h := Attempt.settled_of_fails h _
  quality h := Attempt.settled_of_fails h _
  graph f hf h := by
    show Survey.graphOf x.stages x.analyzable = _
    rw [Attempt.failure?] at hf
    rw [Survey.graphOf]
    cases hgraph : (x.stages.graph x.analyzable).outcome.value with
    | ok g =>
      rw [hgraph] at hf
      cases hf
    | error e =>
      rw [hgraph] at hf
      cases hf
      exact Attempt.settled_of_fails h _
  coupling h := Attempt.settled_of_fails h _
  findings a ha h :=
    List.mem_map.2 ⟨a, (inTurn_perm x.analyzers).mem_iff.2 ha, by rw [Attempt.settled_of_fails h]⟩
  summary answer hanswer h := by
    have hfails : (Survey.summaryIn <$> answer).fails := by rwa [Attempt.fails_map]
    show Survey.summaryOf x.stages x.asked = none
    rw [Survey.summaryOf, Option.mem_def.1 hanswer]
    exact Attempt.settled_of_fails hfails none
  metrics h := Attempt.settled_of_fails ((Attempt.fails_map some _).trans h) none

/-- A boundary says that its stage failed exactly if the stage does fail. -/
theorem outcomes_boundaries :
    (x.boundaries.map fun b => (b.step, b.fault?.isSome)) = x.outcomes := by
  have hanalyzers : (fun b : Boundary => (b.step, b.fault?.isSome)) ∘ x.boundaryOf =
      fun a => (a.name, (x.attempt a).fails) :=
    funext fun a => congrArg (Prod.mk a.name) (Boundary.isSome_fault?_around ..)
  rw [boundaries, preparing, examining, metricsBoundary, outcomes]
  simp only [List.map_append, List.map_cons, List.map_nil, List.map_map,
    Boundary.isSome_fault?_around, hanalyzers, Survey.step_graphBoundary,
    Survey.isSome_fault?_graphBoundary, Survey.step_summaryBoundary,
    Survey.isSome_fault?_summaryBoundary]
  rfl

theorem attempt_of_early {a : Analyzer} (h : a ∈ x.analyzers.filter (·.phase ≤ 1)) :
    x.attempt a = .ofOutcome (a.findings x.before) := by
  rw [attempt, if_pos (of_decide_eq_true (List.mem_filter.1 h).2)]

theorem attempt_of_late {a : Analyzer} (h : a ∈ x.analyzers.filter (1 < ·.phase)) :
    x.attempt a = .ofOutcome (a.findings x.after) := by
  rw [attempt, if_neg (Int.not_le.2 (of_decide_eq_true (List.mem_filter.1 h).2))]

/-- The analyzers of both phases, one after the other, contribute the findings. -/
theorem value_mapM_runAnalyzer :
    ((x.analyzers.filter (·.phase ≤ 1)).mapM (Survey.runAnalyzer x.before)).value ++
      ((x.analyzers.filter (1 < ·.phase)).mapM (Survey.runAnalyzer x.after)).value =
        x.findings := by
  rw [Recorded.value_mapM, Recorded.value_mapM, findings, inTurn, List.map_append]
  refine congrArg₂ (· ++ ·) (List.map_congr_left fun a ha => ?_)
    (List.map_congr_left fun a ha => ?_)
  · rw [Survey.value_runAnalyzer, x.attempt_of_early ha]
  · rw [Survey.value_runAnalyzer, x.attempt_of_late ha]

/-- The analyzers of both phases, one after the other, are warned of by their boundaries. -/
theorem warnings_mapM_runAnalyzer :
    ((x.analyzers.filter (·.phase ≤ 1)).mapM (Survey.runAnalyzer x.before)).warnings ++
      ((x.analyzers.filter (1 < ·.phase)).mapM (Survey.runAnalyzer x.after)).warnings =
        ((inTurn x.analyzers).map x.boundaryOf).flatMap Boundary.warnings := by
  rw [Recorded.warnings_mapM, Recorded.warnings_mapM, inTurn, List.flatMap_map, List.flatMap_append]
  refine congrArg₂ (· ++ ·) (List.flatMap_congr fun a ha => ?_) (List.flatMap_congr fun a ha => ?_)
  · rw [Survey.warnings_runAnalyzer, boundaryOf, x.attempt_of_early ha]
  · rw [Survey.warnings_runAnalyzer, boundaryOf, x.attempt_of_late ha]

/-- The first stages come to what is prepared. -/
theorem value_runPreparation :
    (Survey.runPreparation x.stages x.classification x.repository).value = x.prepared := by
  simp only [Survey.runPreparation, Recorded.value_bind, Attempt.value_guarded]
  rfl

/-- The first stages are warned of by their boundaries. -/
theorem warnings_runPreparation :
    (Survey.runPreparation x.stages x.classification x.repository).warnings =
      x.preparing.flatMap Boundary.warnings := by
  simp only [Survey.runPreparation, Recorded.warnings_bind, Attempt.value_guarded,
    Attempt.warnings_guarded, warnings_inform, warnings_complete, Recorded.warnings_pure,
    List.nil_append, preparing, List.flatMap_cons, List.flatMap_nil]
  rfl

/-- The stages that examine what is prepared come to what is examined, if the
analyzers have distinct names. -/
theorem value_runExamination (h : (x.analyzers.map (·.name)).Nodup) :
    (Survey.runExamination x.stages x.classification x.parser x.prepared).value = x.examined := by
  have hfindings : Keyed.ofList _ = x.findings :=
    (congrArg Keyed.ofList x.value_mapM_runAnalyzer).trans
      (Keyed.ofList_of_nodup (x.nodup_findings h))
  simp only [Survey.runExamination, Recorded.value_bind, Attempt.value_guarded,
    Survey.value_runQuality, Survey.value_runArchitecture]
  exact congrArg (Survey.Examined.mk x.quality x.graph x.coupling) hfindings

/-- The stages that examine what is prepared are warned of by their boundaries. -/
theorem warnings_runExamination (h : x.stages.TellsReason) :
    (Survey.runExamination x.stages x.classification x.parser x.prepared).warnings =
      (x.examining ++ (inTurn x.analyzers).map x.boundaryOf).flatMap Boundary.warnings := by
  simp only [Survey.runExamination, Recorded.warnings_bind, Attempt.value_guarded,
    Attempt.warnings_guarded, Survey.value_runQuality, Survey.warnings_runQuality,
    Survey.value_runArchitecture,
    Survey.warnings_runArchitecture _ h, warnings_reach, Recorded.warnings_pure, List.nil_append,
    List.append_nil, List.flatMap_append]
  rw [← x.warnings_mapM_runAnalyzer, examining, List.flatMap_cons, List.flatMap_cons,
    List.flatMap_singleton, List.append_assoc, List.append_assoc]
  rfl

/-- The last stages come to the survey; it holds no warnings yet. -/
theorem value_runConclusion :
    (Survey.runConclusion x.stages x.asked x.prepared x.examined).value =
      { x.survey with warnings := [] } := by
  simp only [Survey.runConclusion, Recorded.value_bind, Attempt.value_guarded,
    Survey.value_runSummary]
  rfl

/-- The last stages are warned of by their boundaries. -/
theorem warnings_runConclusion :
    (Survey.runConclusion x.stages x.asked x.prepared x.examined).warnings =
      (Survey.summaryBoundary x.stages x.asked).warnings ++ x.metricsBoundary.warnings := by
  simp only [Survey.runConclusion, Recorded.warnings_bind, Attempt.warnings_guarded,
    Survey.warnings_runSummary, Survey.warnings_reachSummary, warnings_complete,
    Recorded.warnings_pure, List.nil_append, List.append_nil, Boundary.around_map]
  rfl

/-- The stages before the prompt. -/
def study : Recorded Survey.Studied :=
  Survey.runStudy x.stages x.classification x.parser x.repository

/-- What is noted and reported before the stages is no warning. -/
theorem warnings_runOpening (r : Repository) : (Survey.runOpening r).warnings = [] := by
  simp only [Survey.runOpening, Recorded.warnings_bind, warnings_inform, warnings_complete,
    warnings_reach, List.append_nil]

/-- The stages before the prompt come to what is prepared and examined. -/
theorem value_study (hnames : (x.analyzers.map (·.name)).Nodup) :
    x.study.value = ⟨x.prepared, x.examined⟩ := by
  simp only [study, Survey.runStudy, Recorded.value_bind, value_runPreparation,
    x.value_runExamination hnames, Recorded.value_pure]

/-- The stages before the prompt are warned of by their boundaries. -/
theorem warnings_study (hreason : x.stages.TellsReason)
    (hnames : (x.analyzers.map (·.name)).Nodup) :
    x.study.warnings =
      (x.preparing ++ x.examining ++ (inTurn x.analyzers).map x.boundaryOf).flatMap
        Boundary.warnings := by
  simp only [study, Survey.runStudy, Recorded.warnings_bind, warnings_runOpening, List.nil_append,
    value_runPreparation, warnings_runPreparation, x.value_runExamination hnames,
    x.warnings_runExamination hreason,
    Recorded.warnings_pure, List.append_nil, List.flatMap_append, List.append_assoc]

/-- Why a run is abandoned without a survey: the repository is refused, the clock cannot be started,
or the prompt for a summary cannot be written. -/
inductive Abandons : Failure → Prop
  | refused {f : Failure} (h : x.repository.validate x.stages.room = .error f) : Abandons f
  | clock {f : Failure} (hvalid : x.repository.validate x.stages.room = .ok ())
      (h : x.stages.deadline = .error f) : Abandons f
  | prompt {f : Failure} (hvalid : x.repository.validate x.stages.room = .ok ())
      (hclock : x.stages.deadline = .ok ())
      (h : x.prompt = .error f) : Abandons f

/-- All stages in order come to the survey, which holds no warnings yet, and are warned
of by their boundaries. -/
theorem runStages_eq (hreason : x.stages.TellsReason) (hnames : (x.analyzers.map (·.name)).Nodup)
    (hclock : x.stages.deadline = .ok ()) {prompt : Option String}
    (hprompt : x.prompt = .ok prompt) :
    ∃ r, Survey.runStages x.stages x.classification x.parser x.repository = .ok r ∧
      r.value = { x.survey with warnings := [] } ∧
        r.warnings = x.boundaries.flatMap Boundary.warnings := by
  have hasked : prompt = x.asked := by rw [asked, hprompt]; rfl
  have hstages : Survey.runStages x.stages x.classification x.parser x.repository =
      .ok (x.study >>= fun s => Survey.runConclusion x.stages x.asked s.prepared s.examined) := by
    show (x.stages.deadline >>= fun _ =>
      Survey.promptOf x.stages x.repository x.study.value.prepared x.study.value.examined >>=
        fun _ => _) = _
    rw [hclock, x.value_study hnames, ← hasked]
    show (x.prompt >>= fun _ => _) = _
    rw [hprompt]
    rfl
  refine ⟨_, hstages, ?_, ?_⟩
  · rw [Recorded.value_bind, x.value_study hnames, value_runConclusion]
  · rw [Recorded.warnings_bind, x.value_study hnames, x.warnings_study hreason hnames,
      warnings_runConclusion]
    simp only [boundaries, List.flatMap_append, List.flatMap_cons, List.flatMap_nil,
      List.append_nil]

/-- A run that is not abandoned gives the survey, and warns of what the survey says. -/
theorem run_eq (hreason : x.stages.TellsReason) (hnames : (x.analyzers.map (·.name)).Nodup)
    (hvalid : x.repository.validate x.stages.room = .ok ()) (hclock : x.stages.deadline = .ok ())
    {prompt : Option String} (hprompt : x.prompt = .ok prompt) :
    ∃ r, x.run = .ok r ∧ r.value = x.survey ∧ r.warnings = x.survey.warnings := by
  obtain ⟨stages, hstages, hvalue, hwarnings⟩ := x.runStages_eq hreason hnames hclock hprompt
  rw [run, Survey.run, hvalid, hstages]
  refine ⟨_, rfl, ?_, ?_⟩
  · rw [Recorded.value_bind, Recorded.value_bind, Recorded.value_pure, hvalue, hwarnings]
    rfl
  · rw [Recorded.warnings_bind, Recorded.warnings_bind, warnings_inform, Recorded.warnings_pure,
      List.append_nil, List.append_nil, hwarnings]
    rfl

end Plan
end CodeSurvey
