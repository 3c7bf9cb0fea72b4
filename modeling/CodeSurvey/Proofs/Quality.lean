/-
# Every fallback is told

A file leaves its measurement by one of five exits: it has no text, it parses, it does not parse, it
has no grammar, or the measurement fails. Each of them gives a metric of the file on its scales, and
a warning that names the file exactly if the metric is a fallback (`Quality.score_scored`); a
measurement that fails has warned of nothing before.

Scoring in batches is scoring one file after another: over distinct paths no metric replaces
another, so the metrics and the warnings of a run are those of its files in order, whatever the size
of a batch (`Quality.value_scoreFiles`, `Quality.warnings_scoreFiles`).
-/

import CodeSurvey.Proofs.Journal
import CodeSurvey.Proofs.Number.Arithmetic
import CodeSurvey.Proofs.Outcome
import CodeSurvey.Proofs.Progress.Aggregate
import CodeSurvey.Quality

namespace CodeSurvey

/-- What is kept on the scale of percentages is rounded to a whole percentage. -/
theorem roundToInt_clampPercent (x : Binary64) :
    ∃ n, x.clampPercent.roundToInt = .ok n ∧ 0 ≤ n ∧ n ≤ 100 := by
  obtain ⟨hfinite, hlower, hupper⟩ := isPercent_iff.1 (clampPercent_isPercent x)
  rw [units_hundred] at hupper
  exact Binary64.roundToInt_between hfinite (by rwa [Int.zero_mul]) hupper

/-- A maintainability index exists unless the complexity is too large for a number,
and lies on its scale. -/
theorem maintainabilityIndex_between {complexity lines i : Int}
    (h : maintainabilityIndex complexity lines = .ok i) : 0 ≤ i ∧ i ≤ 100 := by
  obtain ⟨x, -, h⟩ := Outcome.bind_eq_ok.1 h
  dsimp only at h
  split at h
  · cases h
    decide
  · obtain ⟨n, hn, hbounds⟩ := roundToInt_clampPercent (rawMaintainability x (max lines 1).toNat)
    rw [hn] at h
    cases h
    exact hbounds

/-- Whether the numbers of a metric are on their scales. -/
structure QualityMetric.OnScale (m : QualityMetric) : Prop where
  one_le_complexity : 1 ≤ m.complexity
  zero_le_maintainability : 0 ≤ m.maintainability
  maintainability_le : m.maintainability ≤ 100
  zero_le_lines : 0 ≤ m.lines

namespace Quality

/-- Whether a warning tells of a metric: it is one of this stage, and what
it says names the file. -/
structure Tells (w : Warning) (m : QualityMetric) : Prop where
  step : w.step = "quality"
  names : w.message = "Could not parse " ++ m.path ++ "; complexity estimated from keywords" ∨
    w.message = "Quality analysis failed for " ++ m.path

/-- Whether a metric and the warnings left with it are those of a file. -/
structure Scored (f : SourceFile) (m : QualityMetric) (ws : List Warning) : Prop where
  path : m.path = f.path
  onScale : m.OnScale
  told : List.Forall₂ Tells ws ([m].filter (·.fallback))

/-- Whether a measurement that succeeds gives a metric of the file, told if it is a fallback, and
one that fails has warned of nothing. -/
structure Measures (f : SourceFile) (x : Attempt QualityMetric) : Prop where
  of_ok : ∀ m, x.outcome.value = .ok m → Scored f m x.outcome.warnings
  of_error : ∀ e, x.outcome.value = .error e → x.outcome.warnings = []

/-- A metric that is no fallback needs no warning. -/
theorem measures_pure {f : SourceFile} {m : QualityMetric} (hpath : m.path = f.path)
    (hscale : m.OnScale) (hfallback : m.fallback = false) : Measures f (pure m) := by
  refine ⟨fun n hn => ?_, fun e he => nomatch he⟩
  cases hn
  refine ⟨hpath, hscale, ?_⟩
  rw [List.filter_cons_of_neg (by simp [hfallback])]
  exact .nil

/-- A fallback is given after the warning that tells of it. -/
theorem measures_fallback {f : SourceFile} {m : QualityMetric} (hpath : m.path = f.path)
    (hscale : m.OnScale) (hfallback : m.fallback = true) {message : String} {detail : Option String}
    (htells : Tells ⟨step, message, detail⟩ m) :
    Measures f (liftM (warn step message detail) >>= fun _ => pure m) := by
  refine ⟨fun n hn => ?_, fun e he => nomatch he⟩
  cases hn
  refine ⟨hpath, hscale, ?_⟩
  rw [List.filter_cons_of_pos hfallback]
  exact .cons htells .nil

/-- A step that records nothing may come first. -/
theorem measures_bind {α : Type} {f : SourceFile} {x : Except Failure α}
    {k : α → Attempt QualityMetric} (h : ∀ a, x = .ok a → Measures f (k a)) :
    Measures f (Attempt.ofOutcome x >>= k) := by
  cases x with
  | ok a => exact h a rfl
  | error e => exact ⟨fun m hm => (nomatch hm), fun _ _ => rfl⟩

theorem one_le_keywordComplexity (cs : List Char) : 1 ≤ keywordComplexity cs := by
  unfold keywordComplexity keywordCap
  dsimp only
  omega

variable (c : Classification) (p : Parser)

/-- Four exits of a measurement give a metric, and only the one of an unclean parse warns of it. -/
theorem measures_measure (f : SourceFile) : Measures f (measure c p f) := by
  have hkeywords : ∀ cs : List Char, (1 : Int) ≤ keywordComplexity cs := fun cs =>
    Int.ofNat_le.2 (one_le_keywordComplexity cs)
  have hunparsed : 0 ≤ unparsedIndex ∧ unparsedIndex ≤ 100 := by decide
  have hnonCode : 0 ≤ nonCodeIndex ∧ nonCodeIndex ≤ 100 := by decide
  unfold measure
  dsimp only
  split
  · exact measures_pure rfl ⟨Int.le_refl 1, Int.natCast_nonneg 100, Int.le_refl 100,
      Int.le_refl 0⟩ rfl
  · split
    · refine measures_bind fun parsed _ => ?_
      split
      · rename_i tree htree
        refine measures_bind fun i hi => ?_
        obtain ⟨hlower, hupper⟩ := maintainabilityIndex_between hi
        refine measures_pure rfl ⟨?_, hlower, hupper, Int.natCast_nonneg _⟩ rfl
        exact Int.ofNat_le.2 (Nat.le_add_right 1 _)
      · refine measures_fallback rfl ?_ rfl ⟨rfl, Or.inl rfl⟩
        exact ⟨hkeywords _, hunparsed.1, hunparsed.2, Int.natCast_nonneg _⟩
    · exact measures_pure rfl ⟨hkeywords _, hnonCode.1, hnonCode.2, Int.natCast_nonneg _⟩ rfl

/-- **One metric for each file.** It is on its scales, and it is told
exactly if it is a fallback. -/
theorem score_scored (f : SourceFile) : Scored f (score c p f).value (score c p f).warnings := by
  have hmeasure := measures_measure c p f
  rw [score, Recorded.value_bind, Recorded.warnings_bind]
  cases hvalue : (measure c p f).outcome.value with
  | ok m => simpa using hmeasure.of_ok m hvalue
  | error e =>
    rw [hmeasure.of_error e hvalue]
    have hunparsed : 0 ≤ unparsedIndex ∧ unparsedIndex ≤ 100 := by decide
    exact ⟨rfl, ⟨Int.le_refl 1, hunparsed.1, hunparsed.2, Int.le_refl 0⟩,
      .cons ⟨rfl, Or.inr rfl⟩ .nil⟩

/-- The metric of a path that has none yet goes to the end. -/
theorem put_of_not_mem {m : QualityMetric} {ms : List QualityMetric}
    (h : m.path ∉ ms.map (·.path)) : put m ms = ms ++ [m] := by
  induction ms with
  | nil => rfl
  | cons n rest ih =>
    rw [List.map_cons, List.mem_cons, not_or] at h
    rw [put, if_neg (by simpa using Ne.symm h.1), ih h.2, List.cons_append]

/-- Over paths that are new and distinct each file adds its metric at the end. -/
theorem value_scoreAll {ms : List QualityMetric} {files : List SourceFile}
    (h : (ms.map (·.path) ++ files.map (·.path)).Nodup) :
    (scoreAll c p ms files).value = ms ++ files.map fun f => (score c p f).value := by
  induction files generalizing ms with
  | nil => exact (List.append_nil ms).symm
  | cons f rest ih =>
    have hpath := (score_scored c p f).path
    have hnew : (score c p f).value.path ∉ ms.map (·.path) := by
      rw [hpath]
      exact fun hmem => (List.nodup_append.1 h).2.2 _ hmem _ (List.mem_cons_self ..) rfl
    rw [scoreAll, Recorded.value_bind, put_of_not_mem hnew, ih (by simpa [hpath] using h),
      List.map_cons, List.append_assoc, List.singleton_append]

/-- The warnings are those of each file in order. -/
theorem warnings_scoreAll (ms : List QualityMetric) (files : List SourceFile) :
    (scoreAll c p ms files).warnings = files.flatMap fun f => (score c p f).warnings := by
  induction files generalizing ms with
  | nil => rfl
  | cons f rest ih => rw [scoreAll, Recorded.warnings_bind, ih, List.flatMap_cons]

theorem scoreAll_append (ms : List QualityMetric) (xs ys : List SourceFile) :
    scoreAll c p ms (xs ++ ys) = scoreAll c p ms xs >>= fun ms' => scoreAll c p ms' ys := by
  induction xs generalizing ms with
  | nil => rw [List.nil_append, scoreAll, pure_bind]
  | cons f rest ih =>
    rw [List.cons_append, scoreAll, scoreAll, bind_assoc]
    congr 1
    funext m
    exact ih _

/-- **Batches leave no trace.** Without a token, files scored in batches have the metrics and the
warnings of files scored one after another. -/
theorem scoreBatches_without_token (more total done : Nat) (ms : List QualityMetric)
    (files : List SourceFile) :
    let x := (scoreBatches c p more (fun _ => false) total done ms files).outcome
    x.value = .ok (scoreAll c p ms files).value ∧
      x.warnings = (scoreAll c p ms files).warnings := by
  induction done, ms, files using scoreBatches.induct more (fun _ => false) with
  | case1 done ms =>
    rw [scoreBatches]
    exact ⟨rfl, rfl⟩
  | case2 done ms f rest hstopped => cases hstopped
  | case3 done ms f rest _ ih =>
    obtain ⟨hvalue, hwarnings⟩ := ih (scoreAll c p ms (f :: rest.take more)).value
    have hsplit : f :: rest = (f :: rest.take more) ++ rest.drop more := by
      rw [List.cons_append, List.take_append_drop]
    rw [hsplit, scoreAll_append, Recorded.value_bind, Recorded.warnings_bind, ← hsplit,
      scoreBatches, if_neg (by simp)]
    refine ⟨hvalue, ?_⟩
    rw [Attempt.warnings_lift_bind, Attempt.warnings_lift_bind, hwarnings]
    rfl

/-- The metrics of a run are those of its files in order. -/
theorem value_scoreFiles (batchSize : Int) {files : List SourceFile}
    (h : (files.map (·.path)).Nodup) :
    (scoreFiles c p batchSize (fun _ => false) files).outcome.value =
      .ok (files.map fun f => (score c p f).value) := by
  rw [scoreFiles, (scoreBatches_without_token ..).1, value_scoreAll c p (by simpa using h),
    List.nil_append]

/-- The warnings of a run are those of its files in order. -/
theorem warnings_scoreFiles (batchSize : Int) (files : List SourceFile) :
    (scoreFiles c p batchSize (fun _ => false) files).outcome.warnings =
      files.flatMap fun f => (score c p f).warnings := by
  rw [scoreFiles, (scoreBatches_without_token ..).2, warnings_scoreAll]

/-- The warnings of files one after another tell of their fallbacks in order. -/
theorem told_of_score (files : List SourceFile) :
    List.Forall₂ Tells (files.flatMap fun f => (score c p f).warnings)
      ((files.map fun f => (score c p f).value).filter (·.fallback)) := by
  induction files with
  | nil => exact .nil
  | cons f rest ih =>
    rw [List.flatMap_cons, List.map_cons, ← List.singleton_append, List.filter_append]
    exact List.rel_append (score_scored c p f).told ih

/-- **One metric for each file, one warning for each fallback.** Over files of distinct paths,
whatever the parser does and in batches of whatever size, scoring gives the metrics of the files in
order, each on its scales, and its warnings are in order those of the metrics that are fallbacks. -/
theorem scoreFiles_tells_fallbacks (batchSize : Int) {files : List SourceFile}
    (hpaths : (files.map (·.path)).Nodup) :
    ∃ ms, (scoreFiles c p batchSize (fun _ => false) files).outcome.value = .ok ms ∧
      ms.map (·.path) = files.map (·.path) ∧
      (∀ m ∈ ms, 1 ≤ m.complexity ∧ 0 ≤ m.maintainability ∧ m.maintainability ≤ 100 ∧ 0 ≤ m.lines) ∧
      List.Forall₂ Tells (scoreFiles c p batchSize (fun _ => false) files).outcome.warnings
        (ms.filter (·.fallback)) := by
  refine ⟨_, value_scoreFiles c p batchSize hpaths, ?_, ?_, ?_⟩
  · rw [List.map_map]
    exact List.map_congr_left fun f _ => (score_scored c p f).path
  · intro m hm
    obtain ⟨f, -, rfl⟩ := List.mem_map.1 hm
    have hscale := (score_scored c p f).onScale
    exact ⟨hscale.one_le_complexity, hscale.zero_le_maintainability, hscale.maintainability_le,
      hscale.zero_le_lines⟩
  · rw [warnings_scoreFiles]
    exact told_of_score c p files

/-- Two files in one batch, one that does not parse and one on which the parser fails, and a file
without text in the next batch. -/
theorem scoreFiles_tells_fallbacks_of_three :
    let broken : SyntaxTree := .node { kind := "program", start := 0, stop := 1, broken := true } []
    let p : Parser :=
      ⟨standardGrammars, fun _ text => if text = "x" then .ok broken else .error .noParse⟩
    let files : List SourceFile :=
      [{ path := "a.js", content := some "x" }, { path := "b.js", content := some "y" },
        { path := "c.js" }]
    (files.map (·.path)).Nodup ∧
      ∃ ms, (scoreFiles .standard p 2 (fun _ => false) files).outcome.value = .ok ms ∧
        ms.map (·.path) = ["a.js", "b.js", "c.js"] ∧
        List.Forall₂ Tells (scoreFiles .standard p 2 (fun _ => false) files).outcome.warnings
          (ms.filter (·.fallback)) := by
  intro broken p files
  have hpaths : (files.map (·.path)).Nodup := by decide
  obtain ⟨ms, hvalue, hnames, -, htold⟩ := scoreFiles_tells_fallbacks .standard p 2 hpaths
  exact ⟨hpaths, ms, hvalue, hnames, htold⟩

end Quality
end CodeSurvey
