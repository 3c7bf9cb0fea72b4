/-
# The stages of a survey

Each stage as a computation that may fail. `Stages.standard` has those of the library; any of them
can be replaced, and a run treats whatever stands there alike (`CodeSurvey.Survey.Run`).

Two things are done outside of any boundary, and a run cannot go on where they fail: the clock of
the stage with a deadline is started, and the prompt for a summary is written.
-/

import CodeSurvey.Coupling.Compute
import CodeSurvey.DependencyGraph.Build
import CodeSurvey.Survey
import CodeSurvey.Survey.Preparation

namespace CodeSurvey

/-- The computations of a run. A text generator is asked for a summary if there is one. The prompt
is written where there is `room` for so many values inside one another. -/
structure Stages where
  deadline : Except Failure Unit := .ok ()
  room : Nat := Json.usualRoom
  files : List SourceFile → Attempt (List SourceFile)
  commits : List Commit → Attempt (List Commit)
  contributors : List Commit → Attempt (List Contributor)
  declared : List SourceFile → Attempt Declared
  analyzers : Attempt (List Analyzer)
  quality : List SourceFile → Attempt (List QualityMetric)
  graph : List SourceFile → Attempt DependencyGraph
  inferredGraph : List SourceFile → (reason : String) → Failure → Attempt DependencyGraph
  coupling : List Commit → List SourceFile → Attempt (List CouplingPair)
  metrics : Metrics.Facts → Attempt Metrics
  summarize : Option ((prompt : String) → Attempt String) := none

/-- The name of the stage that has a deadline. -/
def Stages.architecture : String := "architecture"

/-- The stages of the library under some settings; the clock starts when the graph is built. -/
def Stages.standard (c : Classification) (p : Parser) (s : Settings) (clock : Clock) (now : Moment)
    (readers : Manifest.Readers := {}) : Stages where
  files := Preparation.files s.limits.maxFileSize s.excluded
  commits cs := pure (Preparation.commits s.limits.maxCommits cs)
  contributors cs := pure (Contributor.ofCommits cs)
  declared fs := Declared.ofFiles fs readers
  analyzers := .ofOutcome
    (Analyzer.discover (if s.analyzers.isEmpty then none else some s.analyzers) [])
  quality := Quality.scoreFiles c p s.limits.qualityBatch fun _ => false
  graph fs :=
    let (start, clock) := clock.tick
    let deadline := Deadline.start Stages.architecture (some s.limits.architectureTimeout) start
    GraphBuild.build c p s.limits (some (deadline, clock)) fs
  inferredGraph fs reason f :=
    (GraphBuild.buildFallback c s.limits fs reason (some f.detail) : Recorded _)
  coupling := Coupling.compute c s.coupling
  metrics x := .ofOutcome (Metrics.derive c now x)

/-- The stages where the clock is started with some amount of seconds, which must be
a number in binary64. -/
def Stages.startedWith (st : Stages) (timeout : Amount) : Stages :=
  { st with deadline := timeout.toBinary64.map fun _ => () }

end CodeSurvey
