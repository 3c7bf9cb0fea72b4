/-
# Stages are isolated

However many stages of a run fail, the run gives a survey, unless it is abandoned
(`Plan.run_isolates`). Each stage that fails contributes something neutral and is warned of exactly
once, under its step; no stage that did not fail is.

A run is abandoned if the repository cannot be surveyed at all. It is also abandoned where one of
the two steps outside of the boundaries fails, the start of the clock and the writing of the prompt;
a great number among the settings or in the metadata is enough for that
(`Plan.abandoned_for_great_numbers`).

So a run with one analyzer that fails in place of another (`Plan.replacing`) gives the same survey
up to the findings under this one name, the one warning, and the metrics if they count findings
under this name (`Plan.LosesOnly`). What the other stages settle on does not depend on which
analyzers run; the rest follows from where the analyzer stands among those that run
(`Plan.inTurn_replacing`).
-/

import CodeSurvey.Proofs.Number.Overlong
import CodeSurvey.Proofs.Survey.Plan
import Mathlib.Algebra.Group.Int.Defs

namespace CodeSurvey
namespace Plan

/-- Analyzers with one in place of those under its name. -/
def substituting (b : Analyzer) (as : List Analyzer) : List Analyzer :=
  as.map fun a => if a.name == b.name then b else a

/-- The plan with one analyzer in place of the one under its name. -/
def replacing (x : Plan) (b : Analyzer) : Plan :=
  { x with stages := { x.stages with analyzers := substituting b <$> x.stages.analyzers } }

/-- In place of an analyzer that runs there is another one of its name and
phase, and this one fails. -/
structure FailsInPlace (x : Plan) (a b : Analyzer) (f : Failure) : Prop where
  mem : a ∈ x.analyzers
  name_eq : b.name = a.name
  phase_eq : b.phase = a.phase
  fails : (x.attempt b).outcome.value = .error f

/-- The metrics count the findings under these names. -/
def countedNames : List String := ["security", "technical_debt"]

/-- A second plan comes to the survey of a first one but for an analyzer that fails in it: there
is nothing under its name, and its boundary says why. Only metrics that count findings under
this name may notice. -/
structure LosesOnly (x y : Plan) (a : Analyzer) (f : Failure) : Prop where
  graph : y.survey.graph = x.survey.graph
  quality : y.survey.quality = x.survey.quality
  coupling : y.survey.coupling = x.survey.coupling
  contributors : y.survey.contributors = x.survey.contributors
  declared : y.survey.declared = x.survey.declared
  summary : y.survey.summary = x.survey.summary
  asked : y.survey.asked = x.survey.asked
  findings : y.survey.findings = x.survey.findings.map fun e =>
    if e.1 == a.name then (a.name, []) else e
  warnings : ∃ before after,
    x.survey.warnings = before ++ (x.boundaryOf a).warnings ++ after ++ x.metricsBoundary.warnings ∧
      y.survey.warnings =
        before ++ [⟨a.name, Boundary.usualMessage a.name, some f.detail⟩] ++ after ++
          y.metricsBoundary.warnings
  metrics : a.name ∉ countedNames →
    y.survey.metrics = x.survey.metrics ∧ y.metricsBoundary.warnings = x.metricsBoundary.warnings

variable {x : Plan} {a b : Analyzer} {f : Failure}

theorem analyzers_replacing (x : Plan) (b : Analyzer) :
    (x.replacing b).analyzers = substituting b x.analyzers :=
  Attempt.settled_map (substituting b) [] x.stages.analyzers

/-- The names stay as they are. -/
theorem names_substituting (b : Analyzer) (as : List Analyzer) :
    (substituting b as).map (·.name) = as.map (·.name) := by
  rw [substituting, List.map_map]
  refine List.map_congr_left fun a _ => ?_
  by_cases h : a.name = b.name
  · simp [h]
  · simp [h]

/-- An analyzer of the same phase takes the turn of the one under its name. -/
theorem inTurn_substituting {as : List Analyzer}
    (h : ∀ a ∈ as, a.name = b.name → a.phase = b.phase) :
    inTurn (substituting b as) = substituting b (inTurn as) := by
  have hphase : ∀ a ∈ as, (if a.name == b.name then b else a).phase = a.phase := by
    intro a ha
    split_ifs with hname
    · exact (h a ha (eq_of_beq hname)).symm
    · rfl
  rw [inTurn, substituting, inTurn, substituting, List.map_append, List.filter_map, List.filter_map]
  refine congrArg₂ (· ++ ·) (congrArg _ (List.filter_congr fun a ha => ?_))
    (congrArg _ (List.filter_congr fun a ha => ?_))
  · rw [Function.comp_apply, hphase a ha]
  · rw [Function.comp_apply, hphase a ha]

/-- Among analyzers with distinct names another one takes the turn of the one under its name. -/
theorem inTurn_replacing (hnames : (x.analyzers.map (·.name)).Nodup) (h : x.FailsInPlace a b f) :
    inTurn (x.replacing b).analyzers = substituting b (inTurn x.analyzers) := by
  rw [analyzers_replacing]
  refine inTurn_substituting fun c hc hcb => ?_
  rw [List.inj_on_of_nodup_map hnames hc h.mem (hcb.trans h.name_eq), h.phase_eq]

/-- Analyzers without the name of another one stay as they are. -/
theorem substituting_of_not_mem {as : List Analyzer} (h : b.name ∉ as.map (·.name)) :
    substituting b as = as := by
  rw [substituting, List.map_congr_left, List.map_id]
  intro a ha
  rw [if_neg]
  · rfl
  · exact fun hb => h (eq_of_beq hb ▸ List.mem_map_of_mem ha)

/-- Among analyzers with distinct names another one takes the place of the one under its name. -/
theorem substituting_split {as : List Analyzer} (hnames : (as.map (·.name)).Nodup) (ha : a ∈ as)
    (hname : b.name = a.name) :
    ∃ before after, as = before ++ a :: after ∧ substituting b as = before ++ b :: after := by
  obtain ⟨before, after, rfl⟩ := List.append_of_mem ha
  rw [List.map_append, List.map_cons, List.nodup_append, List.nodup_cons] at hnames
  obtain ⟨-, ⟨hafter, -⟩, hbefore⟩ := hnames
  have hsub : substituting b (before ++ a :: after) =
      substituting b before ++ (if a.name == b.name then b else a) :: substituting b after := by
    rw [substituting, List.map_append, List.map_cons]
    rfl
  refine ⟨before, after, rfl, ?_⟩
  rw [hsub, if_pos (beq_iff_eq.2 hname.symm), substituting_of_not_mem, substituting_of_not_mem]
  · rwa [hname]
  · rw [hname]
    exact fun hb => hbefore _ hb _ (List.mem_cons_self ..) rfl

/-- The boundaries before the analyzers do not depend on which analyzers run. -/
theorem preparing_replacing (x : Plan) (b : Analyzer) :
    (x.replacing b).preparing = x.preparing := by
  have hanalyzers : Boundary.around "analyzers" (x.replacing b).stages.analyzers =
      Boundary.around "analyzers" x.stages.analyzers := Boundary.around_map _ _ _ _
  rw [preparing, hanalyzers]
  rfl

/-- Nothing is found under the name of an analyzer that fails; what is found
under other names stays. -/
theorem findings_replacing (hnames : (x.analyzers.map (·.name)).Nodup) (h : x.FailsInPlace a b f) :
    (x.replacing b).findings = x.findings.map fun e =>
      if e.1 == a.name then (a.name, []) else e := by
  rw [findings, inTurn_replacing hnames h, findings, substituting, List.map_map, List.map_map]
  refine List.map_congr_left fun c _ => ?_
  show ((if c.name == b.name then b else c).name,
      (x.attempt (if c.name == b.name then b else c)).settled []) =
    if c.name == a.name then (a.name, []) else (c.name, (x.attempt c).settled [])
  rw [h.name_eq]
  split_ifs
  · rw [h.name_eq, Attempt.settled_of_error h.fails]
  · rfl

/-- The metrics are derived from the same facts if they do not count the
findings of the analyzer. -/
theorem facts_replacing (hnames : (x.analyzers.map (·.name)).Nodup) (h : x.FailsInPlace a b f)
    (hcounted : a.name ∉ countedNames) : (x.replacing b).facts = x.facts := by
  have hcount : ∀ n ∈ countedNames, (x.replacing b).examined.countOf n = x.examined.countOf n := by
    intro n hn
    have hne : n ≠ a.name := fun he => hcounted (he ▸ hn)
    show (((x.replacing b).findings.lookup n).getD []).length =
        ((x.findings.lookup n).getD []).length
    rw [findings_replacing hnames h, Keyed.lookup_map_of_ne hne]
  show ({ x.facts with
    securityFindings := (x.replacing b).examined.countOf "security"
    debtFindings := (x.replacing b).examined.countOf "technical_debt" } : Metrics.Facts) = x.facts
  rw [hcount "security" (by decide), hcount "technical_debt" (by decide)]
  rfl

/-- An analyzer that fails in place of another one changes the survey in what is
said of this one alone. -/
theorem losesOnly_replacing (hnames : (x.analyzers.map (·.name)).Nodup) (h : x.FailsInPlace a b f) :
    LosesOnly x (x.replacing b) a f where
  graph := rfl
  quality := rfl
  coupling := rfl
  contributors := rfl
  declared := rfl
  summary := rfl
  asked := rfl
  findings := findings_replacing hnames h
  warnings := by
    have hperm := inTurn_perm x.analyzers
    obtain ⟨before, after, hturn, hturn'⟩ := substituting_split
      (((hperm.map (·.name)).nodup_iff).2 hnames) (hperm.mem_iff.2 h.mem) h.name_eq
    rw [← inTurn_replacing hnames h] at hturn'
    have hfault : ((x.replacing b).boundaryOf b).warnings =
        [⟨a.name, Boundary.usualMessage a.name, some f.detail⟩] :=
      h.name_eq ▸ Boundary.warnings_around_of_error h.fails
    refine ⟨(x.preparing ++ x.examining ++ before.map x.boundaryOf).flatMap Boundary.warnings,
      (after.map x.boundaryOf ++ [Survey.summaryBoundary x.stages x.asked]).flatMap
        Boundary.warnings, ?_, ?_⟩
    · show x.boundaries.flatMap _ = _
      simp only [boundaries, hturn, List.flatMap_append, List.map_append, List.map_cons,
        List.flatMap_cons, List.flatMap_nil, List.append_assoc, List.append_nil]
    · show (x.replacing b).boundaries.flatMap _ = _
      simp only [boundaries, hturn', preparing_replacing, List.flatMap_append, List.map_append,
        List.map_cons, List.flatMap_cons, List.flatMap_nil, List.append_assoc,
        List.append_nil, hfault]
      rfl
  metrics hcounted := by
    have hfacts := facts_replacing hnames h hcounted
    refine ⟨?_, ?_⟩
    · exact congrArg (fun facts => (some <$> x.stages.metrics facts).settled none) hfacts
    · exact congrArg (fun facts =>
        (Boundary.around "finalizing" (x.stages.metrics facts)).warnings) hfacts

/-- The clock and the prompt of a run do not depend on which analyzers run. -/
theorem abandons_replacing (x : Plan) (b : Analyzer) (f : Failure) :
    (x.replacing b).Abandons f ↔ x.Abandons f := by
  constructor
  · rintro (h | ⟨hvalid, h⟩ | ⟨hvalid, hclock, h⟩)
    exacts [.refused h, .clock hvalid h, .prompt hvalid hclock h]
  · rintro (h | ⟨hvalid, h⟩ | ⟨hvalid, hclock, h⟩)
    exacts [.refused h, .clock hvalid h, .prompt hvalid hclock h]

/-- A run that is not abandoned gives the survey. -/
theorem run_of_not_abandons (x : Plan) (hreason : x.stages.TellsReason)
    (hnames : (x.analyzers.map (·.name)).Nodup) (h : ∀ f, ¬ x.Abandons f) :
    ∃ r, x.run = .ok r ∧ r.value = x.survey ∧ r.warnings = x.survey.warnings := by
  cases hvalid : x.repository.validate x.stages.room with
  | error f => exact absurd (.refused hvalid) (h f)
  | ok u =>
    cases hclock : x.stages.deadline with
    | error f => exact absurd (.clock hvalid hclock) (h f)
    | ok u =>
      cases hprompt : x.prompt with
      | error f => exact absurd (.prompt hvalid hclock hprompt) (h f)
      | ok prompt => exact x.run_eq hreason hnames hvalid hclock hprompt

/-- A run that is abandoned fails. -/
theorem run_of_abandons (x : Plan) (hnames : (x.analyzers.map (·.name)).Nodup) {f : Failure}
    (h : x.Abandons f) : x.run = .error f := by
  rw [run, Survey.run]
  rcases h with h | ⟨hvalid, h⟩ | ⟨hvalid, hclock, h⟩
  · rw [h]
    rfl
  · rw [hvalid, Survey.runStages, h]
    rfl
  · have hstages : Survey.runStages x.stages x.classification x.parser x.repository = .error f := by
      show (x.stages.deadline >>= fun _ =>
        Survey.promptOf x.stages x.repository x.study.value.prepared x.study.value.examined >>=
          fun _ => _) = _
      rw [hclock, x.value_study hnames]
      show (x.prompt >>= fun _ => _) = _
      rw [h]
      rfl
    rw [hvalid, hstages]
    rfl

/-- Writing the prompt fails exactly if there is a generator and what the prompt is to
show cannot be written. -/
theorem prompt_fails_iff (x : Plan) :
    (∃ f, x.prompt = .error f) ↔
      x.stages.summarize.isSome ∧
        ¬ Prompt.IsWritable x.stages.room x.repository x.analyzable x.quality := by
  rw [prompt, Survey.promptOf, ← Prompt.exists_text_iff x.graph]
  cases x.stages.summarize with
  | none => simp
  | some generate =>
    show (∃ f, some <$> Prompt.text x.stages.room x.repository x.analyzable x.graph x.quality =
        .error f) ↔ _
    cases Prompt.text x.stages.room x.repository x.analyzable x.graph x.quality <;> simp

/-- If writing the prompt fails, then because of a value that cannot be written. -/
theorem prompt_eq_error (x : Plan) (f : Failure) (h : x.prompt = .error f) :
    ∃ fault, f = .ofUnwritable fault := by
  rw [prompt, Survey.promptOf] at h
  cases hsummarize : x.stages.summarize with
  | none =>
    rw [hsummarize] at h
    cases h
  | some generate =>
    rw [hsummarize] at h
    cases htext : Prompt.text x.stages.room x.repository x.prepared.analyzable x.examined.graph
      x.examined.quality with
    | ok text =>
      simp only [htext] at h
      cases h
    | error e =>
      simp only [htext] at h
      cases h
      exact Prompt.text_eq_error _ _ htext

/-- **Stages are isolated.** A run fails only if it is abandoned: the repository is refused, or
one of the two steps outside of the boundaries fails. Otherwise it gives a survey of what each
stage has settled on, which is something neutral where the stage failed, and it warns of what
comes through the boundaries of the stages, of which each adds one warning under its step if its
stage failed and none if it did not. An analyzer that fails in place of another one changes what
is said of this one alone. -/
theorem run_isolates (x : Plan) (hreason : x.stages.TellsReason)
    (hnames : (x.analyzers.map (·.name)).Nodup) :
    (∀ f, x.run = .error f ↔ x.Abandons f) ∧
      (∀ f, x.repository.validate x.stages.room = .error f ↔
        ∃ cause, Validation.fault? x.repository = some cause ∧ f = cause.failure x.stages.room) ∧
      ((∃ f, x.prompt = .error f) ↔
        x.stages.summarize.isSome ∧
          ¬ Prompt.IsWritable x.stages.room x.repository x.analyzable x.quality) ∧
      (∀ f, x.prompt = .error f → ∃ fault, f = .ofUnwritable fault) ∧
      ((∀ f, ¬ x.Abandons f) → ∃ r, x.run = .ok r ∧ r.value = x.survey ∧
        r.warnings = x.survey.warnings) ∧
      x.IsNeutralWhereFailed ∧
      (x.boundaries.map fun b => (b.step, b.fault?.isSome)) = x.outcomes ∧
      (∀ b ∈ x.boundaries, (b.fault? = none → b.added = []) ∧
        ∀ message f, b.fault? = some (message, f) → b.added = [⟨b.step, message, some f.detail⟩]) ∧
      ∀ a b f, x.FailsInPlace a b f → LosesOnly x (x.replacing b) a f ∧
        (∀ e, (x.replacing b).run = .error e ↔ x.Abandons e) ∧
        ((∀ e, ¬ x.Abandons e) → ∃ r, (x.replacing b).run = .ok r ∧
          r.value = (x.replacing b).survey) := by
  have hfails : ∀ y : Plan, y.stages.TellsReason → (y.analyzers.map (·.name)).Nodup →
      ∀ f, y.run = .error f ↔ y.Abandons f := by
    refine fun y hyreason hynames f => ⟨fun hf => ?_, y.run_of_abandons hynames⟩
    by_contra hnot
    have hnone : ∀ e, ¬ y.Abandons e := by
      intro e he
      have hsame := (y.run_of_abandons hynames he).symm.trans hf
      exact hnot (Except.error.inj hsame ▸ he)
    obtain ⟨r, hr, -⟩ := y.run_of_not_abandons hyreason hynames hnone
    exact nomatch hr.symm.trans hf
  refine ⟨hfails x hreason hnames, fun f => ?_, x.prompt_fails_iff, x.prompt_eq_error,
    x.run_of_not_abandons hreason hnames, x.isNeutralWhereFailed, x.outcomes_boundaries,
    fun b _ => ⟨Boundary.added_of_none, fun _ _ => Boundary.added_of_some⟩, fun a b f h => ?_⟩
  · rw [Repository.validate]
    cases Validation.fault? x.repository with
    | none => simp
    | some cause => simp [eq_comm]
  · have hnames' : ((x.replacing b).analyzers.map (·.name)).Nodup := by
      rwa [analyzers_replacing, names_substituting]
    refine ⟨losesOnly_replacing hnames h, fun e => ?_, fun hnot => ?_⟩
    · rw [hfails (x.replacing b) hreason hnames' e, abandons_replacing]
    · obtain ⟨r, hr, hvalue, -⟩ := (x.replacing b).run_of_not_abandons hreason hnames' fun e he =>
        hnot e ((abandons_replacing x b e).1 he)
      exact ⟨r, hr, hvalue⟩

/-- A run in which almost every stage fails, the inferred edges and an analyzer among them, gives a
survey, and so does one in which the other analyzer fails too. -/
theorem run_isolates_of_many_failures :
    let licenses : Analyzer :=
      { name := "licenses", supports := fun _ => .ok true, find := fun _ => .error .notAnAnalyzer }
    let broken : Analyzer := { Analyzer.security with supports := fun _ => .error .noParse }
    let stages : Stages :=
      { files := fun _ => throw .noParse
        commits := fun _ => throw .noParse
        contributors := fun _ => throw .noParse
        declared := fun _ => throw .noParse
        analyzers := pure [licenses, Analyzer.security]
        quality := fun _ => throw .noParse
        graph := fun _ => throw (.deadlineExceeded Stages.architecture (Binary64.ofInt 5))
        inferredGraph := fun _ _ _ => throw .noParse
        coupling := fun _ _ => throw .noParse
        metrics := fun _ => throw .noParse
        summarize := some fun _ => throw .noParse }
    let x : Plan :=
      ⟨stages, .standard, { tree := fun _ _ => .error .noParse },
        { files := [{ path := "src/app.py" }, { path := "src/lib.py" }] }⟩
    stages.TellsReason ∧ (x.analyzers.map (·.name)).Nodup ∧
      x.FailsInPlace Analyzer.security broken .noParse ∧ (∃ r, x.run = .ok r ∧ r.value = x.survey) ∧
      x.survey.findings = [("security", []), ("licenses", [])] ∧
      LosesOnly x (x.replacing broken) Analyzer.security .noParse := by
  intro licenses broken stages x
  have hreason : stages.TellsReason := fun files reason f g h => nomatch h
  have hnames : (x.analyzers.map (·.name)).Nodup := by decide
  have hplace : x.FailsInPlace Analyzer.security broken .noParse :=
    ⟨List.mem_cons_of_mem _ (List.mem_cons_self ..), rfl, rfl, rfl⟩
  have hsound : (Validation.fault? x.repository).isNone := by decide +kernel
  have hvalid : x.repository.validate x.stages.room = .ok () :=
    Repository.validate_eq_ok_iff_fault?.2 (Option.isNone_iff_eq_none.1 hsound)
  have hnumbers : ∀ f ∈ x.analyzable, Numeral.isEndless (Prompt.numberOf x.quality f) = false := by
    decide +kernel
  have hwritable : Prompt.IsWritable x.stages.room x.repository x.analyzable x.quality :=
    Prompt.isWritable_of_no_metadata rfl hnumbers
  have hgoes : ∀ f, ¬ x.Abandons f := by
    rintro f (h | ⟨-, h⟩ | ⟨-, -, h⟩)
    · exact nomatch hvalid.symm.trans h
    · exact nomatch h
    · exact (x.prompt_fails_iff.1 ⟨f, h⟩).2 hwritable
  obtain ⟨-, -, -, -, hruns, -, -, -, hloses⟩ := run_isolates x hreason hnames
  obtain ⟨r, hr, hvalue, -⟩ := hruns hgoes
  exact ⟨hreason, hnames, hplace, ⟨r, hr, hvalue⟩, rfl, (hloses _ _ _ hplace).1⟩

/-- An integer too great for binary64 is no number of seconds. -/
theorem toBinary64_of_great {n : Int} (hn : Binary64.ofInt? n = none) :
    Amount.toBinary64 (.int n) = .error .integerTooLarge := by
  unfold Amount.toBinary64
  dsimp only
  generalize Binary64.ofInt? n = seconds at hn ⊢
  subst hn
  rfl

/-- A run is abandoned where the clock is to be started with what is no number of seconds. -/
theorem abandons_startedWith {x : Plan} (hvalid : x.repository.validate x.stages.room = .ok ())
    {timeout : Amount} {f : Failure} (htimeout : timeout.toBinary64 = .error f) :
    Abandons { x with stages := x.stages.startedWith timeout } f := by
  refine .clock hvalid ?_
  show timeout.toBinary64.map _ = _
  rw [htimeout]
  rfl

/-- A prompt cannot be written where the description is an integer of too many digits. -/
theorem prompt_of_endless_description {x : Plan} (hasks : x.stages.summarize.isSome)
    (hroom : 0 < x.stages.room)
    (hnames : Prompt.telling? x.repository ["full_name", "name"] = none) {n : Int}
    (hdescription : x.repository.meta "description" = .int n) (hn : Numeral.isEndless n = true) :
    x.prompt = .error .endlessInteger := by
  have hne : n ≠ 0 := by
    rintro rfl
    exact absurd hn (by decide)
  have htelling : Prompt.telling? x.repository ["description"] = some (.int n) := by
    simp [Prompt.telling?, hdescription, Json.isTruthy, hne]
  have hunwritable : Json.unwritable? x.stages.room (.int n) = some .endlessInteger := by
    obtain ⟨room, hsucc⟩ := Nat.exists_eq_add_of_lt hroom
    rw [hsucc, Json.unwritable?, if_pos hn]
  have hsaying : Prompt.saying x.stages.room x.repository ["description"] "n/a" =
      .error .endlessInteger := by
    rw [Prompt.saying, htelling]
    simp only [Json.written, hunwritable]
    rfl
  obtain ⟨generate, hgenerate⟩ := Option.isSome_iff_exists.1 hasks
  rw [prompt, Survey.promptOf, hgenerate]
  show some <$> Prompt.text x.stages.room x.repository x.analyzable x.graph x.quality = _
  rw [Prompt.text, Prompt.saying, hnames, hsaying]
  rfl

/-- A snapshot that can be surveyed is not: the clock cannot be started with the seconds that the
settings give, or a generator is there and the description cannot be written into its prompt. -/
theorem abandoned_for_great_numbers :
    let p : Parser := { tree := fun _ _ => .error .noParse }
    let describedAs (n : Int) : Repository :=
      { files := [{ path := "src/app.py" }], metadata := [("description", .int n)] }
    let st := Stages.standard .standard p {} [] { date := ⟨2024, 5, 1⟩ }
    let answering : Stages := { st with summarize := some fun _ => pure "A library." }
    (∀ n room, (describedAs n).validate room = .ok ()) ∧
      (Plan.run ⟨st.startedWith (.int (10 ^ 400)), .standard, p, describedAs 1⟩) =
        .error .integerTooLarge ∧
      (Plan.run ⟨answering, .standard, p, describedAs (10 ^ 5000)⟩) = .error .endlessInteger := by
  intro p describedAs st answering
  have hvalid : ∀ n room, (describedAs n).validate room = .ok () := by
    intro n room
    have hsound : (Validation.fault? (describedAs 1)).isNone := by decide +kernel
    exact Repository.validate_eq_ok_iff_fault?.2 (Option.isNone_iff_eq_none.1 hsound)
  have hstandard : ((st.analyzers.settled []).map (·.name)).Nodup := by decide +kernel
  have hnames : ∀ x : Plan, x.stages.analyzers = st.analyzers →
      (x.analyzers.map (·.name)).Nodup := by
    intro x hx
    rwa [analyzers, hx]
  have hclock : ∀ timeout f, timeout.toBinary64 = .error f →
      Plan.run ⟨st.startedWith timeout, .standard, p, describedAs 1⟩ = .error f :=
        fun timeout f h =>
    run_of_abandons _ (hnames _ rfl)
      (abandons_startedWith (x := ⟨st, .standard, p, describedAs 1⟩) (hvalid _ _) h)
  have hroom : 0 < Json.usualRoom := by decide
  have hprompt : ∀ n : Int, Numeral.isEndless n = true →
      Plan.run ⟨answering, .standard, p, describedAs n⟩ = .error .endlessInteger := fun n hn =>
    run_of_abandons _ (hnames _ rfl)
      (.prompt (hvalid n _) rfl (prompt_of_endless_description rfl hroom rfl rfl hn))
  have hgreat : Binary64.ofInt? (10 ^ 400) = none := Option.isNone_iff_eq_none.1 (by decide +kernel)
  have hendless : ∀ k, Numeral.maxDigits ≤ k → Numeral.isEndless (10 ^ k) = true := by
    intro k hk
    rw [Numeral.isEndless_iff, Int.natAbs_pow]
    exact Nat.pow_le_pow_right (by decide) hk
  exact ⟨hvalid, hclock _ _ (toBinary64_of_great hgreat), hprompt _ (hendless 5000 (by decide))⟩

end Plan
end CodeSurvey
