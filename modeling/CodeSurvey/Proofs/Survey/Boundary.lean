/-
# Boundaries of stages

What the boundary of a stage lets through. A stage has settled on its value, or on something neutral
if it failed (`Attempt.settled`); the warnings that come through are those that the stage recorded
itself, and after them one that names its step if it failed (`Boundary.warnings`). The lemmas say so
of each form of boundary that a run has: the plain one (`Attempt.warnings_guarded`), the ones around
the quality of the files, an analyzer and a summary, and the one around the dependency graph, which
has a second stage within the first (`Survey.value_runArchitecture`,
`Survey.warnings_runArchitecture`).
-/

import CodeSurvey.Proofs.Journal
import CodeSurvey.Survey.Run

namespace CodeSurvey
namespace Attempt

variable {α β : Type}

/-- What stands for a computation after its boundary: its value, or
something neutral if it fails. -/
def settled (neutral : α) (x : Attempt α) : α :=
  match x.outcome.value with
  | .ok a => a
  | .error _ => neutral

/-- Why a computation fails, if it does. -/
def failure? (x : Attempt α) : Option Failure :=
  match x.outcome.value with
  | .ok _ => none
  | .error f => some f

/-- Whether a computation fails. -/
def fails (x : Attempt α) : Bool := x.failure?.isSome

theorem settled_of_error {x : Attempt α} {f : Failure} (h : x.outcome.value = .error f)
    (neutral : α) : x.settled neutral = neutral := by
  rw [settled, h]

/-- What is neutral stands for a computation that fails. -/
theorem settled_of_fails {x : Attempt α} (h : x.fails) (neutral : α) :
    x.settled neutral = neutral := by
  rw [fails, failure?] at h
  cases hx : x.outcome.value with
  | ok a =>
    rw [hx] at h
    cases h
  | error f => exact settled_of_error hx neutral

/-- Notes around a computation do not change what comes of it and what it warns of. -/
theorem outcome_between_notes {before : Recorded Unit} {after : α → Recorded Unit}
    (hbefore : before.warnings = []) (hafter : ∀ a, (after a).warnings = []) (x : Attempt α) :
    ((liftM before : Attempt Unit) >>= fun _ => x >>= fun a =>
      (liftM (after a) : Attempt Unit) >>= fun _ =>
      pure a).outcome.value = x.outcome.value ∧
    ((liftM before : Attempt Unit) >>= fun _ => x >>= fun a =>
      (liftM (after a) : Attempt Unit) >>= fun _ =>
      pure a).outcome.warnings = x.outcome.warnings := by
  rw [value_lift_bind, warnings_lift_bind, hbefore, List.nil_append, outcome_bind,
    Recorded.value_bind, Recorded.warnings_bind]
  cases x.outcome.value with
  | ok a =>
    refine ⟨rfl, ?_⟩
    rw [warnings_lift_bind, hafter a]
    exact List.append_nil _
  | error f => exact ⟨rfl, List.append_nil _⟩

/-- A function of the value takes something neutral to something neutral. -/
theorem settled_map (f : α → β) (neutral : α) (x : Attempt α) :
    (f <$> x).settled (f neutral) = f (x.settled neutral) := by
  rw [settled, outcome_map, Recorded.value_bind, settled]
  cases x.outcome.value <;> rfl

theorem fails_map (f : α → β) (x : Attempt α) : (f <$> x).fails = x.fails := by
  rw [fails, failure?, outcome_map, Recorded.value_bind, fails, failure?]
  cases x.outcome.value <;> rfl

theorem failure?_of_ok {x : Attempt α} {a : α} (h : x.outcome.value = .ok a) :
    x.failure? = none := by
  rw [failure?, h]

theorem failure?_of_error {x : Attempt α} {f : Failure} (h : x.outcome.value = .error f) :
    x.failure? = some f := by
  rw [failure?, h]

end Attempt

/-- What the boundary of a stage lets through: the step it names, the warnings that the stage
recorded itself and, if the stage failed, what the boundary says of it and why it failed. -/
structure Boundary where
  step : String
  own : List Warning := []
  fault? : Option (String × Failure) := none

namespace Boundary

/-- The warning that a boundary adds if its stage failed. -/
def added (b : Boundary) : List Warning :=
  b.fault?.toList.map fun fault => ⟨b.step, fault.1, some fault.2.detail⟩

/-- The warnings that come through a boundary. -/
def warnings (b : Boundary) : List Warning := b.own ++ b.added

/-- Nothing is added for a stage that did not fail. -/
theorem added_of_none {b : Boundary} (h : b.fault? = none) : b.added = [] := by
  rw [added, h]
  rfl

/-- One warning is added for a stage that failed; it names the step, and says
what happened and why. -/
theorem added_of_some {b : Boundary} {message : String} {f : Failure}
    (h : b.fault? = some (message, f)) : b.added = [⟨b.step, message, some f.detail⟩] := by
  rw [added, h]
  rfl

/-- What a boundary says of a stage that failed. -/
def usualMessage (step : String) : String := step ++ " stage failed; continuing with defaults"

/-- The boundary around a computation. -/
def around {α : Type} (step : String) (x : Attempt α)
    (message : String := usualMessage step) : Boundary :=
  ⟨step, x.outcome.warnings, x.failure?.map fun f => (message, f)⟩

variable {α : Type} {step message : String}

/-- A boundary says that its stage failed exactly if it did. -/
theorem isSome_fault?_around (x : Attempt α) : (around step x message).fault?.isSome = x.fails :=
  Option.isSome_map ..

/-- The warnings of a computation that gives a value are its own. -/
theorem warnings_around_of_ok {x : Attempt α} {a : α} (h : x.outcome.value = .ok a) :
    (around step x message).warnings = x.outcome.warnings := by
  have hnone : (around step x message).fault? = none := by
    rw [around, Attempt.failure?_of_ok h]; rfl
  rw [warnings, added_of_none hnone, List.append_nil]
  rfl

/-- The warnings of a computation that fails are its own and the one that is added. -/
theorem warnings_around_of_error {x : Attempt α} {f : Failure} (h : x.outcome.value = .error f) :
    (around step x message).warnings = x.outcome.warnings ++ [⟨step, message, some f.detail⟩] := by
  have hsome : (around step x message).fault? = some (message, f) := by
    rw [around, Attempt.failure?_of_error h]
    rfl
  rw [warnings, added_of_some hsome]
  rfl

end Boundary

@[simp] theorem warnings_reach (stage label : String) (x : Binary64) :
    (reach stage label x).warnings = [] := rfl

@[simp] theorem warnings_complete (stage label : String) :
    (complete stage label).warnings = [] := rfl

namespace Attempt

variable {α : Type}

/-- A boundary lets through the value of the stage, or what is neutral. -/
@[simp] theorem value_guarded (step : String) (neutral : α) (x : Attempt α) :
    (x.guarded step neutral).value = x.settled neutral := by
  rw [guarded, Recorded.value_bind, settled]
  cases x.outcome.value with
  | ok a => rfl
  | error f => rfl

/-- A boundary lets through the warnings of the stage and adds one if the stage failed. -/
@[simp] theorem warnings_guarded (step : String) (neutral : α) (x : Attempt α) :
    (x.guarded step neutral).warnings = (Boundary.around step x).warnings := by
  rw [guarded, Recorded.warnings_bind]
  cases h : x.outcome.value with
  | ok a => rw [Boundary.warnings_around_of_ok h]; exact List.append_nil _
  | error f => rw [Boundary.warnings_around_of_error h]; rfl

/-- Progress does not change the outcome of a stage. -/
@[simp] theorem value_advancing (stage : String) (label : Nat → Nat → String) (x : Attempt α) :
    (x.advancing stage label).outcome.value = x.outcome.value := rfl

/-- Progress is not warned of. -/
@[simp] theorem warnings_advancing (stage : String) (label : Nat → Nat → String) (x : Attempt α) :
    (x.advancing stage label).outcome.warnings = x.outcome.warnings := by
  refine Recorded.warnings_relabel (fun e => ?_) x.outcome
  cases e <;> rfl

end Attempt

namespace Boundary

variable {α β : Type}

/-- A boundary depends on what its stage warns of and why it fails alone. -/
theorem around_congr {x : Attempt α} {y : Attempt β} (hw : x.outcome.warnings = y.outcome.warnings)
    (hf : x.failure? = y.failure?) (step message : String) :
    around step x message = around step y message := by
  rw [around, around, hw, hf]

/-- What is made of the value of a stage does not matter to its boundary. -/
theorem around_map (f : α → β) (x : Attempt α) (step message : String) :
    around step (f <$> x) message = around step x message := by
  refine around_congr ?_ ?_ step message
  · rw [Attempt.outcome_map, Recorded.warnings_bind, Recorded.warnings_pure, List.append_nil]
  · rw [Attempt.failure?, Attempt.outcome_map, Recorded.value_bind, Attempt.failure?]
    cases x.outcome.value <;> rfl

end Boundary

namespace Survey

variable (st : Stages)

/-- The quality of some files is that of the stage, or none. -/
@[simp] theorem value_runQuality (files : List SourceFile) :
    (runQuality st files).value = (st.quality files).settled [] := by
  rw [runQuality, Recorded.value_bind, Recorded.value_bind, Recorded.value_pure,
    Attempt.value_guarded, Attempt.settled,
    (Attempt.outcome_between_notes (warnings_inform _) (fun _ => warnings_inform _) _).1]
  rfl

/-- The notes around the quality of some files are no warnings. -/
@[simp] theorem warnings_runQuality (files : List SourceFile) :
    (runQuality st files).warnings =
      (Boundary.around Quality.step (st.quality files)).warnings := by
  rw [runQuality, Recorded.warnings_bind, Attempt.warnings_guarded, Recorded.warnings_bind,
    warnings_complete, Recorded.warnings_pure, List.append_nil, List.append_nil]
  obtain ⟨hvalue, hwarnings⟩ :=
    Attempt.outcome_between_notes (warnings_inform _) (fun _ => warnings_inform _) _
  refine congrArg Boundary.warnings
    (Boundary.around_congr (hwarnings.trans (Attempt.warnings_advancing ..)) ?_ _ _)
  rw [Attempt.failure?, hvalue]
  rfl

/-- An analyzer contributes what it finds, or nothing, under its name. -/
@[simp] theorem value_runAnalyzer (x : AnalyzerContext) (a : Analyzer) :
    (runAnalyzer x a).value = (a.name, (Attempt.ofOutcome (a.findings x)).settled []) := by
  rw [runAnalyzer, Recorded.value_bind, Recorded.value_pure, Attempt.value_guarded]

/-- An analyzer that fails is warned of under its name. -/
@[simp] theorem warnings_runAnalyzer (x : AnalyzerContext) (a : Analyzer) :
    (runAnalyzer x a).warnings =
      (Boundary.around a.name (Attempt.ofOutcome (a.findings x))).warnings := by
  rw [runAnalyzer, Recorded.warnings_bind, Attempt.warnings_guarded, Recorded.warnings_pure,
    List.append_nil]

/-- The summary in a text, unless the text is blank. -/
def summaryIn (text : String) : Option String :=
  if (Text.trimmed text).isEmpty then none else some (Text.trimmed text)

/-- What the generator says of a prompt, if it is asked and gives a text that is not blank. -/
def summaryOf (prompt : Option String) : Option String :=
  (answer? st prompt).bind fun answer => (summaryIn <$> answer).settled none

/-- The boundary around the generator; nothing comes through if it is not asked. -/
def summaryBoundary (prompt : Option String) : Boundary :=
  match answer? st prompt with
  | none => { step := "summary" }
  | some answer => Boundary.around "summary" answer "Failed to generate repository summary"

/-- A run has the summary that the generator gives, or none. -/
@[simp] theorem value_runSummary (prompt : Option String) :
    (runSummary st prompt).value = summaryOf st prompt := by
  rw [runSummary, summaryOf]
  cases answer? st prompt with
  | none => rfl
  | some answer =>
    rw [Option.bind_some, Attempt.settled, Attempt.outcome_map, Recorded.value_bind,
      Recorded.value_bind]
    cases answer.outcome.value with
    | ok text => rfl
    | error f => rfl

/-- A generator that fails is warned of. -/
@[simp] theorem warnings_runSummary (prompt : Option String) :
    (runSummary st prompt).warnings = (summaryBoundary st prompt).warnings := by
  rw [runSummary, summaryBoundary]
  cases answer? st prompt with
  | none => rfl
  | some answer =>
    show (_ >>= _ : Recorded _).warnings = _
    rw [Recorded.warnings_bind]
    cases h : answer.outcome.value with
    | ok text => rw [Boundary.warnings_around_of_ok h]; exact List.append_nil _
    | error f => rw [Boundary.warnings_around_of_error h]; rfl

/-- The graph that stands for the graph of some files after a failure: one of inferred
edges, or an empty one. -/
def inferredGraphOf (files : List SourceFile) (f : Failure) : DependencyGraph :=
  (st.inferredGraph files (reasonFor f) f).settled { fallback := true }

/-- The graph of some files, or what stands for it. -/
def graphOf (files : List SourceFile) : DependencyGraph :=
  match (st.graph files).outcome.value with
  | .ok g => g
  | .error f => inferredGraphOf st files f

/-- The boundary around the graph of some files. If the graph fails, the stage that infers edges
warns of it; if that stage fails too, the boundary warns of the second failure. -/
def graphBoundary (files : List SourceFile) : Boundary :=
  let told := (st.graph files).outcome.warnings
  match (st.graph files).failure? with
  | none => ⟨GraphBuild.step, told, none⟩
  | some f =>
    let inferred := st.inferredGraph files (reasonFor f) f
    match inferred.failure? with
    | none => ⟨GraphBuild.step, told, some (reasonFor f, f)⟩
    | some e =>
      ⟨GraphBuild.step, told ++ inferred.outcome.warnings,
        some ("Fallback architecture failed; returning an empty graph", e)⟩

theorem step_summaryBoundary (prompt : Option String) :
    (summaryBoundary st prompt).step = "summary" := by
  unfold summaryBoundary
  split <;> rfl

theorem isSome_fault?_summaryBoundary (prompt : Option String) :
    (summaryBoundary st prompt).fault?.isSome = (answer? st prompt).any Attempt.fails := by
  unfold summaryBoundary
  cases answer? st prompt with
  | none => rfl
  | some answer => exact Boundary.isSome_fault?_around _

theorem step_graphBoundary (files : List SourceFile) :
    (graphBoundary st files).step = GraphBuild.step := by
  unfold graphBoundary
  dsimp only
  split
  · rfl
  · split <;> rfl

theorem isSome_fault?_graphBoundary (files : List SourceFile) :
    (graphBoundary st files).fault?.isSome = (st.graph files).fails := by
  unfold graphBoundary Attempt.fails
  dsimp only
  cases (st.graph files).failure? with
  | none => rfl
  | some f =>
    dsimp only
    split <;> rfl

end Survey

/-- Whether a stage that infers edges for a reason warns of this reason, once,
whenever it gives a graph. -/
def Stages.TellsReason (st : Stages) : Prop :=
  ∀ files reason f g, (st.inferredGraph files reason f).outcome.value = .ok g →
    (st.inferredGraph files reason f).outcome.warnings = [⟨GraphBuild.step, reason, some f.detail⟩]

/-- The edges that the library infers, or a failure in place of them, come with the reason. -/
theorem Stages.tellsReason_of_buildFallback {st : Stages} {c : Classification} {l : Limits}
    (h : ∀ files reason f,
      st.inferredGraph files reason f =
      (GraphBuild.buildFallback c l files reason (some f.detail) : Recorded _) ∨
        ∃ e, (st.inferredGraph files reason f).outcome.value = .error e) : st.TellsReason := by
  intro files reason f g hg
  rcases h files reason f with hbuilt | ⟨e, he⟩
  · rw [hbuilt]
    rfl
  · rw [he] at hg
    cases hg

/-- The stages of the library warn of the reason for which edges are inferred. -/
theorem Stages.tellsReason_standard (c : Classification) (p : Parser) (s : Settings) (clock : Clock)
    (now : Moment) : (Stages.standard c p s clock now).TellsReason :=
  tellsReason_of_buildFallback fun _ _ _ => .inl rfl

namespace Survey

variable (st : Stages)

/-- That there is a summary is no warning. -/
@[simp] theorem warnings_reachSummary (summary : Option String) :
    (reachSummary summary).warnings = [] := by
  rw [reachSummary]
  split <;> rfl

/-- A failure of the graph is noted, not warned of. -/
theorem warnings_complainOfGraph (f : Failure) : (complainOfGraph f).warnings = [] := by
  cases f <;> rfl

/-- After a failure the graph is one of inferred edges, or an empty one. -/
theorem value_runInferredGraph (files : List SourceFile) (reason : String) (f : Failure) :
    (runInferredGraph st files reason f).value = (st.inferredGraph files reason f).settled
      { fallback := true } := by
  rw [runInferredGraph, Recorded.value_bind, Attempt.settled]
  cases (st.inferredGraph files reason f).outcome.value with
  | ok g => rfl
  | error e => rfl

/-- A run has the graph of its files, or what stands for it. -/
@[simp] theorem value_runArchitecture (files : List SourceFile) :
    (runArchitecture st files).value = graphOf st files := by
  rw [runArchitecture, Recorded.value_bind, Attempt.value_advancing, graphOf]
  cases (st.graph files).outcome.value with
  | ok g => rfl
  | error f => exact value_runInferredGraph st files (reasonFor f) f

/-- A graph that fails is warned of once: for the edges that are inferred, or
because these fail too. -/
theorem warnings_runArchitecture (h : st.TellsReason) (files : List SourceFile) :
    (runArchitecture st files).warnings = (graphBoundary st files).warnings := by
  rw [runArchitecture, Recorded.warnings_bind, Attempt.warnings_advancing, Attempt.value_advancing,
    graphBoundary]
  cases hgraph : (st.graph files).outcome.value with
  | ok g =>
    rw [Attempt.failure?_of_ok hgraph]
    rfl
  | error f =>
    have hlate : ∀ x : Recorded DependencyGraph,
        (complainOfGraph f >>= fun _ => x >>= fun g =>
          complete Stages.architecture "Detected architecture patterns" >>= fun _ =>
            pure g).warnings =
          x.warnings := by
      intro x
      simp only [Recorded.warnings_bind, warnings_complainOfGraph, warnings_complete,
        Recorded.warnings_pure, List.append_nil, List.nil_append]
    rw [Attempt.failure?_of_error hgraph]
    refine (congrArg _ (hlate (runInferredGraph st files (reasonFor f) f))).trans ?_
    rw [runInferredGraph, Recorded.warnings_bind]
    cases hinferred : (st.inferredGraph files (reasonFor f) f).outcome.value with
    | ok g =>
      rw [h files (reasonFor f) f g hinferred]
      simp only [Attempt.failure?_of_ok hinferred]
      rfl
    | error e =>
      simp only [Attempt.failure?_of_error hinferred]
      exact (List.append_assoc ..).symm

end Survey
end CodeSurvey
