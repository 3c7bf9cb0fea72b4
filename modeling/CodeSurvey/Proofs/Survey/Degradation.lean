/-
# Degradation is told once

A graph of inferred edges comes about in five ways: the repository is too large, no import leads
anywhere, the deadline passes, the build fails, or the fallback fails too and leaves an empty graph.
Each of them warns in a place of its own. That none of them warns after another one did rests on two
facts: following imports warns of nothing, wherever it is stopped (`GraphBuild.warnings_followAll`),
and what comes after it in a build cannot fail. So a build that fails has warned of nothing yet, and
one that gives a graph has warned of it if it is a fallback (`GraphBuild.buildWith_tellsOnce`).

`Survey.runArchitecture_tellsOnce` carries this through the boundary of the stage, and
`Survey.architecture_degradation_toldOnce` says it of the stages of the library, whatever the
scanner and the clock do and whichever of the two computations of a graph fails.
-/

import CodeSurvey.Proofs.DependencyGraph.Invariants
import CodeSurvey.Proofs.Survey.Boundary

namespace CodeSurvey

/-- Whether warnings tell once that a graph is a fallback, and tell nothing of any other graph. -/
structure TellsOnce (g : DependencyGraph) (ws : List Warning) : Prop where
  of_fallback : g.fallback = true → ∃ w, ws = [w] ∧ w.step = "architecture"
  of_evidence : g.fallback = false → ws = []

theorem tellsOnce_of_fallback {g : DependencyGraph} (h : g.fallback = true) {w : Warning}
    (hw : w.step = "architecture") : TellsOnce g [w] :=
  ⟨fun _ => ⟨w, rfl, hw⟩, fun hnot => absurd (hnot.symm.trans h) Bool.false_ne_true⟩

theorem tellsOnce_of_evidence {g : DependencyGraph} (h : g.fallback = false) : TellsOnce g [] :=
  ⟨fun hfallback => absurd (h.symm.trans hfallback) Bool.false_ne_true, fun _ => rfl⟩

@[simp] theorem warnings_warn (step message : String) (detail : Option String) :
    (warn step message detail).warnings = [⟨step, message, detail⟩] := rfl

namespace Attempt

variable {α β : Type}

@[simp] theorem warnings_ofOutcome (x : Except Failure α) :
    (ofOutcome x).outcome.warnings = [] := rfl

/-- Two steps of which neither warns of anything warn of nothing. -/
theorem warnings_bind_eq_nil {x : Attempt α} {f : α → Attempt β} (hx : x.outcome.warnings = [])
    (hf : ∀ a, (f a).outcome.warnings = []) : (x >>= f).outcome.warnings = [] := by
  rw [outcome_bind, Recorded.warnings_bind, hx, List.nil_append]
  cases x.outcome.value with
  | ok a => exact hf a
  | error e => rfl

/-- Whether a computation of a graph tells once that it gives a fallback, and
tells nothing otherwise. -/
structure TellsOnce (x : Attempt DependencyGraph) : Prop where
  of_ok : ∀ g, x.outcome.value = .ok g → CodeSurvey.TellsOnce g x.outcome.warnings
  of_error : ∀ f, x.outcome.value = .error f → x.outcome.warnings = []

/-- A computation that fails at once tells nothing. -/
theorem tellsOnce_error (f : Failure) :
    (ofOutcome (.error f) : Attempt DependencyGraph).TellsOnce :=
  ⟨fun _ h => (nomatch h), fun _ _ => rfl⟩

/-- A computation that gives a graph and tells once of it. -/
theorem tellsOnce_lift {x : Recorded DependencyGraph}
    (h : CodeSurvey.TellsOnce x.value x.warnings) :
    (liftM x : Attempt DependencyGraph).TellsOnce := by
  have hwarnings : (liftM x : Attempt DependencyGraph).outcome.warnings = x.warnings := by
    rw [outcome_lift, Recorded.warnings_bind, Recorded.warnings_pure, List.append_nil]
  refine ⟨fun g hg => ?_, fun f hf => ?_⟩
  · rw [value_lift, Except.ok.injEq] at hg
    rw [hwarnings, ← hg]
    exact h
  · rw [value_lift] at hf
    cases hf

/-- A step that warns of nothing may come first. -/
theorem TellsOnce.bind {x : Attempt α} {f : α → Attempt DependencyGraph}
    (hx : x.outcome.warnings = []) (hf : ∀ a, (f a).TellsOnce) : (x >>= f).TellsOnce := by
  have hwarnings : ∀ a, x.outcome.value = .ok a →
      (x >>= f).outcome.warnings = (f a).outcome.warnings := by
    intro a ha
    rw [outcome_bind, Recorded.warnings_bind, hx, List.nil_append, ha]
  refine ⟨fun g hg => ?_, fun e he => ?_⟩
  · obtain ⟨a, ha, hfa⟩ := value_bind_eq_ok.1 hg
    rw [hwarnings a ha]
    exact (hf a).of_ok g hfa
  · cases hvalue : x.outcome.value with
    | ok a =>
      rw [outcome_bind, Recorded.value_bind, hvalue] at he
      rw [hwarnings a hvalue]
      exact (hf a).of_error e he
    | error e' =>
      rw [outcome_bind, Recorded.warnings_bind, hx, hvalue]
      rfl

end Attempt

namespace GraphBuild

variable (c : Classification) (scan : Scanner)

/-- Following imports warns of nothing, whether or not it comes to an end. -/
theorem warnings_followAll (known : List String) (total : Nat) (watch : Option (Deadline × Clock))
    (done : Nat) (links : Links) (files : List SourceFile) :
    (followAll c scan known total watch done links files).outcome.warnings = [] := by
  induction files generalizing watch done links with
  | nil => rfl
  | cons f rest ih =>
    rw [followAll]
    refine Attempt.warnings_bind_eq_nil (Attempt.warnings_ofOutcome _) fun watch' => ?_
    refine Attempt.warnings_bind_eq_nil (Attempt.warnings_ofOutcome _) fun specifiers => ?_
    exact Attempt.warnings_bind_eq_nil rfl fun _ => ih watch' (done + 1) _

/-- A fallback tells once, with the reason that is given for it. -/
theorem buildFallback_tellsOnce (l : Limits) (files : List SourceFile) (reason : String)
    (detail : Option String) :
    TellsOnce (buildFallback c l files reason detail).value
      (buildFallback c l files reason detail).warnings :=
  tellsOnce_of_fallback rfl rfl

/-- **A build tells once.** If it gives a fallback, because the repository is too large or
because no import leads anywhere, it has warned of it once; otherwise, and if it is stopped
or fails, of nothing. -/
theorem buildWith_tellsOnce (l : Limits) (watch : Option (Deadline × Clock))
    (files : List SourceFile) :
    (buildWith c scan l watch files).TellsOnce := by
  unfold buildWith
  dsimp only
  split
  · exact Attempt.tellsOnce_lift (buildFallback_tellsOnce c l _ _ none)
  · refine Attempt.TellsOnce.bind rfl fun _ => ?_
    refine Attempt.TellsOnce.bind (warnings_followAll c scan ..) fun links => ?_
    split
    · rename_i hfallback
      exact Attempt.tellsOnce_lift (x := warn step _ >>= fun _ => inform _ >>= fun _ => pure _)
        (tellsOnce_of_fallback hfallback rfl)
    · rename_i hevidence
      exact Attempt.TellsOnce.bind rfl fun _ =>
        Attempt.tellsOnce_lift (x := pure _) (tellsOnce_of_evidence (Bool.eq_false_iff.2 hevidence))

end GraphBuild

/-- Whether the graph of a run tells once of a fallback, and the inferred edges give fallbacks and
tell nothing if they fail. -/
structure Stages.TellsDegradation (st : Stages) : Prop where
  graph : ∀ files, (st.graph files).TellsOnce
  inferred_fallback : ∀ files reason f g, (st.inferredGraph files reason f).outcome.value = .ok g →
    g.fallback = true
  inferred_error : ∀ files reason f e, (st.inferredGraph files reason f).outcome.value = .error e →
    (st.inferredGraph files reason f).outcome.warnings = []

namespace Survey

/-- The boundary around a graph lets one warning through for a fallback, from whichever of the
places that warn of one, and none for any other graph. -/
theorem runArchitecture_tellsOnce {st : Stages} (h : st.TellsDegradation) (hreason : st.TellsReason)
    (files : List SourceFile) :
    TellsOnce (runArchitecture st files).value (runArchitecture st files).warnings := by
  rw [value_runArchitecture, warnings_runArchitecture st hreason, graphOf, graphBoundary]
  cases hgraph : (st.graph files).outcome.value with
  | ok g =>
    rw [Attempt.failure?_of_ok hgraph]
    show TellsOnce g ((st.graph files).outcome.warnings ++ [])
    rw [List.append_nil]
    exact (h.graph files).of_ok g hgraph
  | error f =>
    rw [Attempt.failure?_of_error hgraph, (h.graph files).of_error f hgraph]
    dsimp only
    cases hinferred : (st.inferredGraph files (reasonFor f) f).outcome.value with
    | ok g =>
      rw [Attempt.failure?_of_ok hinferred, inferredGraphOf, Attempt.settled, hinferred]
      exact tellsOnce_of_fallback (h.inferred_fallback files _ f g hinferred) rfl
    | error e =>
      rw [Attempt.failure?_of_error hinferred, inferredGraphOf, Attempt.settled_of_error hinferred,
        h.inferred_error files _ f e hinferred]
      exact tellsOnce_of_fallback rfl rfl

end Survey

/-- The graph of some files under the deadline of the settings, from what a scanner
says that they import. -/
def graphUnderDeadline (c : Classification) (scan : Scanner) (l : Limits) (clock : Clock)
    (files : List SourceFile) :
    Attempt DependencyGraph :=
  let (start, clock) := clock.tick
  let deadline := Deadline.start Stages.architecture (some l.architectureTimeout) start
  GraphBuild.buildWith c scan l (some (deadline, clock)) files

/-- A computation, unless it fails at once. -/
def Attempt.unlessFault {α : Type} (fault : Option Failure) (x : Attempt α) : Attempt α :=
  match fault with
  | some f => .ofOutcome (.error f)
  | none => x

/-- The stages of the library with a scanner of imports of one's own, where the graph and the
inferred edges of some files may fail at once. -/
def Stages.disturbed (c : Classification) (p : Parser) (s : Settings) (clock : Clock) (now : Moment)
    (scan : Scanner) (graphFault inferredFault : List SourceFile → Option Failure) : Stages :=
  let st := Stages.standard c p s clock now
  { st with
    graph := fun files =>
      (graphUnderDeadline c scan s.limits clock files).unlessFault (graphFault files)
    inferredGraph :=
      fun files reason f => (st.inferredGraph files reason f).unlessFault (inferredFault files) }

/-- With the scanner that the parser gives, and where nothing fails, the stages are
those of the library. -/
theorem Stages.disturbed_scanImports (c : Classification) (p : Parser) (s : Settings)
    (clock : Clock) (now : Moment) :
    Stages.disturbed c p s clock now (scanImports p) (fun _ => none) (fun _ => none) =
      Stages.standard c p s clock now := rfl

section Disturbed

variable (c : Classification) (p : Parser) (s : Settings) (clock : Clock) (now : Moment)
  (scan : Scanner)
  (graphFault inferredFault : List SourceFile → Option Failure)

/-- The inferred edges of some files are those of the library, or fail at once. -/
theorem Stages.inferredGraph_disturbed (files : List SourceFile) (reason : String) (f : Failure) :
    (Stages.disturbed c p s clock now scan graphFault inferredFault).inferredGraph files reason f =
        (GraphBuild.buildFallback c s.limits files reason (some f.detail) : Recorded _) ∨
      ∃ e, (Stages.disturbed c p s clock now scan graphFault inferredFault).inferredGraph
        files reason f =
        .ofOutcome (.error e) := by
  simp only [Stages.disturbed]
  cases inferredFault files with
  | none => exact .inl rfl
  | some e => exact .inr ⟨e, rfl⟩

theorem Stages.tellsReason_disturbed :
    (Stages.disturbed c p s clock now scan graphFault inferredFault).TellsReason := by
  refine Stages.tellsReason_of_buildFallback (c := c) (l := s.limits) fun files reason f => ?_
  refine (Stages.inferredGraph_disturbed c p s clock now scan graphFault inferredFault files reason
    f).imp id ?_
  rintro ⟨e, he⟩
  exact ⟨e, by rw [he]; rfl⟩

theorem Stages.tellsDegradation_disturbed :
    (Stages.disturbed c p s clock now scan graphFault inferredFault).TellsDegradation where
  graph files := by
    simp only [Stages.disturbed]
    cases graphFault files with
    | none => exact GraphBuild.buildWith_tellsOnce c scan s.limits _ files
    | some f => exact Attempt.tellsOnce_error f
  inferred_fallback files reason f g hg := by
    rcases Stages.inferredGraph_disturbed c p s clock now scan graphFault inferredFault files reason
        f with h | ⟨e, h⟩
    · rw [h, Attempt.value_lift, Except.ok.injEq] at hg
      rw [← hg]
      rfl
    · rw [h] at hg
      cases hg
  inferred_error files reason f e he := by
    rcases Stages.inferredGraph_disturbed c p s clock now scan graphFault inferredFault files reason
        f with h | ⟨e', h⟩
    · rw [h] at he
      cases he
    · rw [h]
      rfl

/-- **Degradation is told exactly once.** Whatever a scanner says of each file, or wherever
it fails, whatever the clock reads and whichever computation of a graph fails, the stage
gives a graph with one warning, which names the step, if the graph is a fallback, and with
no warning otherwise. -/
theorem Survey.architecture_degradation_toldOnce (files : List SourceFile) :
    let st := Stages.disturbed c p s clock now scan graphFault inferredFault
    TellsOnce (Survey.runArchitecture st files).value (Survey.runArchitecture st files).warnings :=
  Survey.runArchitecture_tellsOnce
    (Stages.tellsDegradation_disturbed c p s clock now scan graphFault inferredFault)
    (Stages.tellsReason_disturbed c p s clock now scan graphFault inferredFault) files

end Disturbed
end CodeSurvey
