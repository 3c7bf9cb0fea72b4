/-
# Running a survey

A run puts the stages together. Every stage has a boundary: if it fails, one warning names its step,
and something neutral stands for its result, so that the run goes on. There is no survey at all of a
snapshot that cannot be surveyed, nor where a step outside of the boundaries fails: starting the
clock of the stage with a deadline, or writing the prompt for a summary.

The journal of a run holds the warnings, the notes for the log and the steps of progress in the
order in which they were made; `announcements` and `consoleLines` say what is seen of it.
-/

import CodeSurvey.Log
import CodeSurvey.Progress
import CodeSurvey.Survey.Prompt
import CodeSurvey.Survey.Stages
import CodeSurvey.Validation

namespace CodeSurvey

/-- Records that a stage is done to a percentage. -/
def reach (stage label : String) (percent : Binary64) : Recorded Unit :=
  .tell (.progress stage label percent)

/-- Records that a stage is done. -/
def complete (stage label : String) : Recorded Unit := reach stage label hundred

/-- Records a note about a failure. -/
def complain (message : String) (f : Failure) : Recorded Unit :=
  .tell (.note .error (message ++ ": " ++ f.message))

/-- A stage within its boundary. -/
def Attempt.guarded {α : Type} (step : String) (neutral : α) (x : Attempt α) : Recorded α := do
  match ← x.outcome with
  | .ok a => return a
  | .error f =>
    complain ("Stage " ++ step ++ " failed") f
    warn step (step ++ " stage failed; continuing with defaults") (some f.detail)
    return neutral

/-- A stage whose advances count as its progress. -/
def Attempt.advancing {α : Type} (stage : String) (label : Nat → Nat → String) (x : Attempt α) :
    Attempt α :=
  ExceptT.mk <| Recorded.relabel
    (fun e => match e with
      | .advance done total =>
        [.progress stage (label done total) (Binary64.ofRatio done total * hundred)]
      | e => [e])
    x.outcome

namespace Survey

/-- The quality of some files. -/
def runQuality (st : Stages) (files : List SourceFile) : Recorded (List QualityMetric) := do
  let compute : Attempt (List QualityMetric) := do
    inform ("Calculating quality metrics for " ++ toString files.length ++ " files")
    let label (done total : Nat) : String :=
      "Scored " ++ toString done ++ "/" ++ toString total ++ " files"
    let ms ← (st.quality files).advancing Quality.step label
    inform ("Calculated quality metrics for " ++ toString ms.length ++ " files")
    return ms
  let ms ← compute.guarded Quality.step []
  complete Quality.step "Calculated quality metrics"
  return ms

/-- A graph of inferred edges, given for a reason; an empty one if even that fails. -/
def runInferredGraph (st : Stages) (files : List SourceFile) (reason : String) (f : Failure) :
    Recorded DependencyGraph := do
  match ← (st.inferredGraph files reason f).outcome with
  | .ok g => return g
  | .error e =>
    complain "Fallback architecture failed" e
    warn GraphBuild.step "Fallback architecture failed; returning an empty graph" (some e.detail)
    return { fallback := true }

/-- The reason given for edges that are inferred after a failure. -/
def reasonFor : Failure → String
  | .deadlineExceeded .. => "Architecture analysis timed out; using fallback architecture"
  | _ => "Architecture analysis failed; using fallback architecture"

/-- Records a note about the failure of a dependency graph. -/
def complainOfGraph : Failure → Recorded Unit
  | .deadlineExceeded _ timeout =>
    .tell (.note .warning ("Architecture detection timed out after " ++ timeout.wholeDigits ++ "s"))
  | f => complain "Architecture detection failed" f

/-- The dependency graph of some files. -/
def runArchitecture (st : Stages) (files : List SourceFile) : Recorded DependencyGraph := do
  let label := "Detecting architecture patterns"
  let outcome ← ((st.graph files).advancing Stages.architecture fun _ _ => label).outcome
  let graph ← match outcome with
    | .ok g => pure g
    | .error f => do
      complainOfGraph f
      runInferredGraph st files (reasonFor f) f
  complete Stages.architecture "Detected architecture patterns"
  return graph

/-- What an analyzer finds, under its name. -/
def runAnalyzer (x : AnalyzerContext) (a : Analyzer) : Recorded (String × List Finding) := do
  let found ← (Attempt.ofOutcome (a.findings x)).guarded a.name []
  return (a.name, found)

/-- What the generator answers, if there is one that is asked. -/
def answer? (st : Stages) (prompt : Option String) : Option (Attempt String) :=
  st.summarize.bind fun generate => prompt.map generate

/-- A summary, if a generator is there and gives a text that is not blank. -/
def runSummary (st : Stages) (prompt : Option String) : Recorded (Option String) := do
  match answer? st prompt with
  | none => return none
  | some answer =>
    match ← answer.outcome with
    | .ok s => return if (Text.trimmed s).isEmpty then none else some (Text.trimmed s)
    | .error f =>
      complain "Summary generation failed" f
      warn "summary" "Failed to generate repository summary" (some f.detail)
      return none

/-- What a repository is called in notes. -/
def labelOf (r : Repository) : String :=
  ((Prompt.telling? r ["full_name"]).map (·.displayed)).getD "repository"

/-- What the first stages of a run give. -/
structure Prepared where
  files : List SourceFile
  analyzable : List SourceFile
  commits : List Commit
  contributors : List Contributor
  declared : Declared
  analyzers : List Analyzer

/-- The stages that prepare a repository. -/
def runPreparation (st : Stages) (c : Classification) (r : Repository) : Recorded Prepared := do
  let files ← (st.files r.files).guarded "files" r.files
  let analyzable := files.filter fun f => c.isAnalyzable f.path
  inform (toString analyzable.length ++ " of " ++ toString files.length ++ " files are analyzable")
  complete "files" ("Prepared " ++ toString files.length ++ " files")
  let commits ← (st.commits r.commits).guarded "commits" []
  complete "commits" ("Loaded " ++ toString commits.length ++ " commits")
  let contributors ← (st.contributors commits).guarded "contributors" []
  complete "contributors" ("Summarised " ++ toString contributors.length ++ " contributors")
  complete "pr" "No pull request data in snapshot"
  let declared ← (st.declared files).guarded Declared.step {}
  complete Declared.step ("Found " ++ toString declared.total ++ " declared dependencies")
  let analyzers ← st.analyzers.guarded "analyzers" []
  return { files, analyzable, commits, contributors, declared, analyzers }

/-- What is found in a repository that is prepared. -/
structure Examined where
  quality : List QualityMetric
  graph : DependencyGraph
  coupling : List CouplingPair
  findings : List (String × List Finding)

/-- The number of findings under a name. -/
def Examined.countOf (e : Examined) (name : String) : Nat :=
  ((e.findings.lookup name).getD []).length

/-- The stages that examine a repository. -/
def runExamination (st : Stages) (c : Classification) (p : Parser) (x : Prepared) :
    Recorded Examined := do
  let before : AnalyzerContext :=
    { classification := c, parser := p, files := x.analyzable, commits := x.commits }
  let quality ← runQuality st x.analyzable
  let graph ← runArchitecture st x.analyzable
  let coupling ← (st.coupling x.commits x.files).guarded "coupling" []
  let early ← (x.analyzers.filter (·.phase ≤ 1)).mapM (runAnalyzer before)
  reach "finalizing" "Computed structural signals" (Binary64.ofInt 25)
  let after := { before with quality, graph, coupling }
  let late ← (x.analyzers.filter (1 < ·.phase)).mapM (runAnalyzer after)
  reach "finalizing" "Generated findings" (Binary64.ofInt 60)
  return { quality, graph, coupling, findings := Keyed.ofList (early ++ late) }

/-- What the metrics of a repository are derived from. -/
def factsOf (x : Prepared) (e : Examined) : Metrics.Facts where
  files := x.files
  analyzable := x.analyzable
  commits := x.commits
  contributors := x.contributors
  quality := e.quality
  graph := e.graph
  securityFindings := e.countOf "security"
  debtFindings := e.countOf "technical_debt"

/-- Records that there is a summary. -/
def reachSummary (summary : Option String) : Recorded Unit :=
  if summary.isSome then reach "finalizing" "Generated summary" (Binary64.ofInt 85) else pure ()

/-- The prompt of a run, if there is a generator to answer it. -/
def promptOf (st : Stages) (r : Repository) (x : Prepared) (e : Examined) :
    Except Failure (Option String) :=
  match st.summarize with
  | none => .ok none
  | some _ => some <$> Prompt.text st.room r x.analyzable e.graph e.quality

/-- The stages that conclude a survey. -/
def runConclusion (st : Stages) (prompt : Option String) (x : Prepared) (e : Examined) :
    Recorded Survey := do
  let summary ← runSummary st prompt
  reachSummary summary
  let derived : Attempt (Option Metrics) := some <$> st.metrics (factsOf x e)
  let metrics ← derived.guarded "finalizing" none
  complete "finalizing" "Analysis complete"
  return {
    graph := e.graph
    quality := e.quality
    coupling := e.coupling
    findings := e.findings
    contributors := x.contributors
    declared := x.declared
    asked := prompt
    metrics, summary }

/-- What a run notes and reports before its stages. -/
def runOpening (r : Repository) : Recorded Unit := do
  let label := labelOf r
  inform ("Starting analysis of " ++ label ++ " (" ++ toString r.files.length ++ " files)")
  complete "init" "Initializing analysis"
  reach "repoInfo" "Reading repository metadata" (Binary64.ofInt 25)
  complete "repoInfo" ("Read metadata for " ++ label)

/-- What the stages before the prompt come to. -/
structure Studied where
  prepared : Prepared
  examined : Examined

/-- The stages before the prompt. -/
def runStudy (st : Stages) (c : Classification) (p : Parser) (r : Repository) :
    Recorded Studied := do
  runOpening r
  let prepared ← runPreparation st c r
  let examined ← runExamination st c p prepared
  return { prepared, examined }

/-- All stages in order, unless the clock cannot be started or the prompt cannot be written. -/
def runStages (st : Stages) (c : Classification) (p : Parser) (r : Repository) :
    Except Failure (Recorded Survey) := do
  st.deadline
  let study := runStudy st c p r
  let prompt ← promptOf st r study.value.prepared study.value.examined
  return do
    let s ← study
    runConclusion st prompt s.prepared s.examined

/-- What a run notes at its end. -/
def closingText (r : Repository) (s : Survey) (warnings : Nat) : String :=
  "Analysis of " ++ labelOf r ++ " finished: " ++ toString s.graph.nodes.length ++ " nodes, " ++
    toString s.graph.edges.length ++ " edges, " ++ toString warnings ++ " warnings"

/-- A run over a repository. -/
def run (st : Stages) (c : Classification) (p : Parser) (r : Repository) :
    Except Failure (Recorded Survey) := do
  r.validate st.room
  let stages ← runStages st c p r
  return do
    let s ← stages
    inform (closingText r s stages.warnings.length)
    return { s with warnings := stages.warnings }

end Survey

/-- The percentages announced for the steps of progress in a journal. -/
def announcements (es : List Entry) : List Announcement :=
  let step (acc : Tracker × List Announcement) (e : Entry) : Tracker × List Announcement :=
    match e with
    | .progress stage label amount =>
      let (t, said, _) := acc.1.update stage label (.real amount)
      (t, acc.2 ++ said.toList)
    | _ => acc
  (es.foldl step (Tracker.initial, [])).2

/-- What the console shows of an entry at the usual threshold. -/
def consoleTextOf : Entry → String
  | .warning w => Log.consoleText .warning (Log.warningText w)
  | .note .debug _ => ""
  | .note severity text => Log.consoleText severity text
  | _ => ""

/-- The lines that the console shows of a journal. -/
def consoleLines (es : List Entry) : List String :=
  Text.linesOf ("".intercalate (es.map consoleTextOf))

end CodeSurvey
