/-
# Text that no survey sees

The stages of a run see the files as they are prepared: a file that is excluded is gone, and text
that is too large is left out. So two files that differ in such text alone (`SourceFile.AlikeUnder`)
are prepared alike, and the warning of text that is too large names the same paths
(`Preparation.files_congr`).

Nothing else in a run reads the text of a file. The checks before it look at the paths
(`Repository.AlikeUnder.validate_eq`), and what comes after the preparation goes on with the files
that are prepared (`Survey.runUnder_of_files`). Hence the survey, its warnings and its progress tell
nothing of that text (`Survey.runUnder_tells_nothing_unseen`).

All this holds where the files can be prepared. If half of a surrogate pair stands alone in a text
that is kept, they cannot, and the run goes on with the files as they stand in the repository, those
that are excluded among them (`Survey.unprepared_files_tell`).
-/

import CodeSurvey.Proofs.Quality
import CodeSurvey.Proofs.Survey.Preparation
import CodeSurvey.Proofs.Survey.Progress

namespace CodeSurvey

/-- Whether two files are the same under some settings but for text that is not seen: that of a file
that is excluded, and text that is too large in UTF-8 in both, where a size is recorded. -/
structure SourceFile.AlikeUnder (s : Settings) (f g : SourceFile) : Prop where
  path_eq : f.path = g.path
  size_eq : f.size = g.size
  language_eq : f.language = g.language
  content_eq : (f.content = g.content ∧ f.halves = g.halves) ∨
    Preparation.isExcluded s.excluded (Path.tidied f.path) = true ∨
    (Preparation.isOversized s.limits.maxFileSize f = true ∧
      Preparation.isOversized s.limits.maxFileSize g = true ∧
      f.halves = [] ∧ g.halves = [] ∧ f.size ≠ 0)

/-- Whether two repositories are the same under some settings but for text of their
files that is not seen. -/
structure Repository.AlikeUnder (s : Settings) (r r' : Repository) : Prop where
  files : List.Forall₂ (SourceFile.AlikeUnder s) r.files r'.files
  commits_eq : r.commits = r'.commits
  defaultBranch_eq : r.defaultBranch = r'.defaultBranch
  metadata_eq : r.metadata = r'.metadata

namespace SourceFile.AlikeUnder

variable {s : Settings} {f g : SourceFile}

theorem isExcluded_eq (h : f.AlikeUnder s g) :
    Preparation.isExcluded s.excluded (Path.tidied f.path) = Preparation.isExcluded s.excluded
      (Path.tidied g.path) := by
  rw [h.path_eq]

/-- A file that is not excluded differs in no text, or in text that is too large. -/
theorem content_eq_of_kept (h : f.AlikeUnder s g)
    (hkept : Preparation.isExcluded s.excluded (Path.tidied f.path) = false) :
    f = g ∨ (Preparation.isOversized s.limits.maxFileSize f = true ∧
      Preparation.isOversized s.limits.maxFileSize g = true ∧ f.halves = [] ∧ g.halves = [] ∧
        f.size ≠ 0) := by
  rcases h.content_eq with ⟨hcontent, hhalves⟩ | hexcluded | hoversized
  · left
    obtain ⟨path, content, size, language, halves⟩ := f
    obtain ⟨path', content', size', language', halves'⟩ := g
    rw [mk.injEq]
    exact ⟨h.path_eq, hcontent, h.size_eq, h.language_eq, hhalves⟩
  · rw [hkept] at hexcluded
    cases hexcluded
  · exact .inr hoversized

/-- Of two files that are kept both have text that is too large, or neither has. -/
theorem isOversized_eq (h : f.AlikeUnder s g)
    (hkept : Preparation.isExcluded s.excluded (Path.tidied f.path) = false) :
    Preparation.isOversized s.limits.maxFileSize f =
      Preparation.isOversized s.limits.maxFileSize g := by
  rcases h.content_eq_of_kept hkept with rfl | ⟨hf, hg, -⟩
  · rfl
  · rw [hf, hg]

/-- Of two files that are kept both have text in UTF-8, or neither has, for the same reason. -/
theorem encodeError?_eq (h : f.AlikeUnder s g)
    (hkept : Preparation.isExcluded s.excluded (Path.tidied f.path) = false) :
    f.encodeError? = g.encodeError? := by
  rcases h.content_eq_of_kept hkept with rfl | ⟨-, -, hf, hg, -⟩
  · rfl
  · rw [encodeError?_eq_none_iff.2 (.inr hf), encodeError?_eq_none_iff.2 (.inr hg)]

/-- Two files that are kept are prepared alike. -/
theorem prepareFile_eq (h : f.AlikeUnder s g)
    (hkept : Preparation.isExcluded s.excluded (Path.tidied f.path) = false) :
    Preparation.prepareFile s.limits.maxFileSize f =
      Preparation.prepareFile s.limits.maxFileSize g := by
  rcases h.content_eq_of_kept hkept with rfl | ⟨hf, hg, hhalves, hhalves', hsize⟩
  · rfl
  · -- The size that is recorded stands, so the text is not measured.
    have hsize' : g.size ≠ 0 := h.size_eq ▸ hsize
    simp only [Preparation.prepareFile, hf, hg, if_true, bne_iff_ne.2 hsize', h.path_eq, h.size_eq,
      h.language_eq, hhalves, hhalves']

end SourceFile.AlikeUnder

/-- Functions that agree on the items that stand in the same places of two
lists give the same list. -/
theorem map_eq_of_forall₂ {α β γ : Type} {R : α → β → Prop} {f : α → γ} {g : β → γ} {xs : List α}
    {ys : List β} (hfg : ∀ x y, R x y → f x = g y) (h : List.Forall₂ R xs ys) :
    xs.map f = ys.map g := by
  have hsame : List.Forall₂ (· = ·) (xs.map f) (ys.map g) := List.rel_map (fun x y => hfg x y) h
  rwa [List.forall₂_eq_eq_eq] at hsame

namespace Preparation

variable {s : Settings} {fs gs : List SourceFile}

/-- Of files that differ in text that is not seen, those in the same places are kept. -/
theorem included_alike (h : List.Forall₂ (SourceFile.AlikeUnder s) fs gs) :
    List.Forall₂ (fun f g => isExcluded s.excluded (Path.tidied f.path) = false ∧ f.AlikeUnder s g)
      (included s.excluded fs) (included s.excluded gs) := by
  refine (List.forall₂_and_left _ _).2 ⟨fun f hf => ?_, List.rel_filter (fun f g hfg => ?_) h⟩
  · simpa using (List.mem_filter.1 hf).2
  · show _ = true ↔ _ = true
    rw [hfg.isExcluded_eq]

/-- **Files are prepared without their text that is not seen**, and the
warning does not tell of it. -/
theorem files_congr (h : List.Forall₂ (SourceFile.AlikeUnder s) fs gs) :
    files s.limits.maxFileSize s.excluded fs = files s.limits.maxFileSize s.excluded gs := by
  have hkept := included_alike h
  have hfault : (included s.excluded fs).findSome? SourceFile.encodeError? =
      (included s.excluded gs).findSome? SourceFile.encodeError? := by
    have hfaults : (included s.excluded fs).map SourceFile.encodeError? =
        (included s.excluded gs).map SourceFile.encodeError? :=
      map_eq_of_forall₂ (fun f g hfg => hfg.2.encodeError?_eq hfg.1) hkept
    simpa only [List.findSome?_map, Function.id_comp] using congrArg (List.findSome? id) hfaults
  have hprepared : (included s.excluded fs).map (prepareFile s.limits.maxFileSize) =
      (included s.excluded gs).map (prepareFile s.limits.maxFileSize) :=
    map_eq_of_forall₂ (fun f g hfg => hfg.2.prepareFile_eq hfg.1) hkept
  have htold : ((included s.excluded fs).filter (isOversized s.limits.maxFileSize)).map (fun f =>
      Path.tidied f.path) =
      ((included s.excluded gs).filter (isOversized s.limits.maxFileSize)).map fun f =>
        Path.tidied f.path :=
    map_eq_of_forall₂ (fun f g hfg => congrArg Path.tidied hfg.2.path_eq)
      (List.rel_filter (fun f g hfg => Eq.congr_left (hfg.2.isOversized_eq hfg.1)) hkept)
  rw [files, files, forM_checkEncodable, forM_checkEncodable, hfault, hprepared, htold]

end Preparation

/-- The checks before a run look at the paths of the files and at the metadata alone. -/
theorem Repository.AlikeUnder.validate_eq {s : Settings} {r r' : Repository} (h : r.AlikeUnder s r')
    (room : Nat) : r.validate room = r'.validate room := by
  have hpaths : (r.files.map fun f => Path.tidied f.path) = r'.files.map fun f =>
      Path.tidied f.path :=
    map_eq_of_forall₂ (fun f g hfg => congrArg Path.tidied hfg.path_eq) h.files
  have hmeta (name : String) : r.meta name = r'.meta name := by
    rw [Repository.meta, Repository.meta, h.metadata_eq]
  rw [validate, validate, Validation.fault?, Validation.fault?, hpaths, hmeta, hmeta]

namespace Survey

variable (schedule : Schedule) (c : Classification) (p : Parser) {r r' : Repository}

/-- **What a run reads of a repository.** Two repositories whose files come to the same through the
boundary of their stage, and that are the same apart from their files, give the same run. -/
theorem runUnder_of_files (st : Stages) (hvalid : r.validate st.room = r'.validate st.room)
    (hfiles : (st.files r.files).guarded "files" r.files =
        (st.files r'.files).guarded "files" r'.files)
    (hcount : r.files.length = r'.files.length) (hcommits : r.commits = r'.commits)
    (hbranch : r.defaultBranch = r'.defaultBranch) (hmetadata : r.metadata = r'.metadata) :
    runUnder schedule st c p r = runUnder schedule st c p r' := by
  obtain ⟨files, commits, branch, metadata⟩ := r
  obtain ⟨files', commits', branch', metadata'⟩ := r'
  dsimp only at hfiles hcount hcommits hbranch hmetadata
  subst hcommits hbranch hmetadata
  have hprepared : runPreparation st c ⟨files, commits, branch, metadata⟩ =
      runPreparation st c ⟨files', commits, branch, metadata⟩ := by
    rw [runPreparation, runPreparation, hfiles]
  have hopening : runOpening ⟨files, commits, branch, metadata⟩ =
      runOpening ⟨files', commits, branch, metadata⟩ := by
    rw [runOpening, runOpening, hcount]
    rfl
  have hstudy : studyUnder schedule st c p ⟨files, commits, branch, metadata⟩ =
      studyUnder schedule st c p ⟨files', commits, branch, metadata⟩ := by
    rw [studyUnder, studyUnder, hprepared, hopening]
  exact runUnder_congr hvalid rfl hstudy rfl rfl rfl

/-- A stage that gives a value comes through its boundary as one that comes to the same. -/
theorem guarded_congr {α : Type} {x y : Attempt α} (hsame : x.outcome = y.outcome) {a : α}
    (hgives : x.outcome.value = .ok a) (step : String) (neutral neutral' : α) :
    x.guarded step neutral = y.guarded step neutral' := by
  rw [Attempt.guarded, Attempt.guarded, ← hsame]
  refine Recorded.bind_congr ?_
  rw [hgives]

/-- **A survey tells nothing of text that is not seen.** Take two repositories that are the same but
for the text of files that are excluded, and for text that is too large in both where the size of
the file is recorded. If one of them can be surveyed, so can the other. Under the same schedule of
jobs, with the stages of the library and the same clock and generator of summaries, the preparation
of their files comes to the same; if it gives files at all, both runs give the same survey with the
same journal, or are abandoned alike. -/
theorem runUnder_tells_nothing_unseen (s : Settings) (clock : Clock) (now : Moment)
    (readers : Manifest.Readers) (generate : Option (String → Except Failure String))
    (h : r.AlikeUnder s r') (hvalid : r.validate = .ok ()) :
    let st := (Stages.standard c p s clock now readers).summarizedBy generate
    r'.validate = .ok () ∧ (st.files r.files).outcome = (st.files r'.files).outcome ∧
      ((∃ prepared, (st.files r.files).outcome.value = .ok prepared) ↔
        (∀ f ∈ Preparation.included s.excluded r.files, f.content = none ∨ f.halves = []) ∧
          ((∀ f ∈ Preparation.included s.excluded r.files,
            Preparation.isOversized s.limits.maxFileSize f = false) ∨
            s.limits.maxFileSize.natAbs < 10 ^ Numeral.maxDigits)) ∧
      ((∃ prepared, (st.files r.files).outcome.value = .ok prepared) →
        run st c p r = run st c p r' ∧ runUnder schedule st c p r = runUnder schedule st c p r' ∧
          ∀ prompt, promptUnder schedule st c p r = .ok prompt →
            ∃ x, runUnder schedule st c p r = .ok x ∧ runUnder schedule st c p r' = .ok x) := by
  intro st
  have houtcome : (st.files r.files).outcome = (st.files r'.files).outcome :=
    congrArg Attempt.outcome (Preparation.files_congr h.files)
  have hsame (hgives : ∃ prepared, (st.files r.files).outcome.value = .ok prepared)
      (schedule : Schedule) : runUnder schedule st c p r = runUnder schedule st c p r' := by
    obtain ⟨prepared, hprepared⟩ := hgives
    exact runUnder_of_files schedule c p st (h.validate_eq _) (guarded_congr houtcome hprepared ..)
      h.files.length_eq
      h.commits_eq h.defaultBranch_eq h.metadata_eq
  refine ⟨h.validate_eq _ ▸ hvalid, houtcome, Preparation.exists_files_eq_ok_iff, fun hgives =>
    ⟨?_, hsame hgives schedule, fun prompt hprompt => ?_⟩⟩
  · rw [← runUnder_nil, ← runUnder_nil]
    exact hsame hgives {}
  · have hruns := runUnder_eq_ok_iff.2 ⟨hvalid, rfl, prompt, hprompt, rfl⟩
    exact ⟨_, hruns, (hsame hgives schedule).symm.trans hruns⟩

/-- Two repositories that differ in a key that is excluded, which could not be read in one of them,
and in a text that is too large. -/
theorem runUnder_tells_nothing_unseen_of_two_texts :
    let s : Settings := { limits := { maxFileSize := 4 }, excluded := ["secrets/*"] }
    let r : Repository :=
      { files :=
          [{ path := "src/a.js", content := some "a();" },
            { path := "./secrets/key.py", content := some "eval(1)" },
            { path := "src/data.json", content := some "[1, 2]", size := 6 }] }
    let r' : Repository :=
      { files :=
          [{ path := "src/a.js", content := some "a();" },
            { path := "./secrets/key.py", content := none },
            { path := "src/data.json", content := some "[3, 4, 5]", size := 6 }] }
    let p : Parser := ⟨standardGrammars, fun _ _ => .error .noParse⟩
    let st := (Stages.standard .standard p s [Binary64.zero]
      { date := ⟨2024, 5, 1⟩ }).summarizedBy none
    r.AlikeUnder s r' ∧ r.validate = .ok () ∧ r ≠ r' ∧
      ∃ x, runUnder ⟨[1, 0, 1], []⟩ st .standard p r = .ok x ∧
        runUnder ⟨[1, 0, 1], []⟩ st .standard p r' = .ok x := by
  intro s r r' p st
  have hexcluded : Preparation.isExcluded s.excluded (Path.tidied "./secrets/key.py") = true := by
    decide +kernel
  have halike : r.AlikeUnder s r' :=
    { files :=
        .cons ⟨rfl, rfl, rfl, .inl ⟨rfl, rfl⟩⟩ <| .cons ⟨rfl, rfl, rfl, .inr (.inl hexcluded)⟩ <|
          .cons ⟨rfl, rfl, rfl,
            .inr (.inr ⟨by decide +kernel, by decide +kernel, rfl, rfl, by decide⟩)⟩ .nil
      commits_eq := rfl
      defaultBranch_eq := rfl
      metadata_eq := rfl }
  have hvalid : r.validate = .ok () := Repository.validate_eq_ok (by decide +kernel)
  have hne : r ≠ r' := fun h => by
    have hcontent : r.files.map (·.content) = r'.files.map (·.content) := by rw [h]
    simp [r, r'] at hcontent
  obtain ⟨-, -, hprepares, hsame⟩ :=
    runUnder_tells_nothing_unseen ⟨[1, 0, 1], []⟩ .standard p s [Binary64.zero]
      { date := ⟨2024, 5, 1⟩ } {} none halike hvalid
  have hencodable : ∀ f ∈ Preparation.included s.excluded r.files, f.content = none ∨
      f.halves = [] := by decide +kernel
  have hlimit : s.limits.maxFileSize.natAbs < 10 ^ Numeral.maxDigits :=
    not_le.1 (mt Numeral.isEndless_iff.2 (by decide))
  exact ⟨halike, hvalid, hne, (hsame (hprepares.2 ⟨hencodable, .inr hlimit⟩)).2.2 none rfl⟩

/-- A survey tells of the text of a file that is excluded: half of a surrogate pair in another file
keeps all files from being prepared, and then the quality of the excluded file is told. -/
theorem unprepared_files_tell :
    let s : Settings := { excluded := ["secrets/*"] }
    let half : SourceFile :=
      { path := "notes.txt", content := some (String.singleton (Utf8.standIn 0xD800)), size := 1,
        halves := [0] }
    let r (key : Option String) : Repository :=
      { files := [half, { path := "secrets/key.go", content := key }] }
    let p : Parser := ⟨standardGrammars, fun _ _ => .error .noParse⟩
    let st := (Stages.standard .standard p s [Binary64.zero]
      { date := ⟨2024, 5, 1⟩ }).summarizedBy none
    (r (some "key")).AlikeUnder s (r none) ∧ (r (some "key")).validate = .ok () ∧
      run st .standard p (r (some "key")) ≠ run st .standard p (r none) := by
  intro s half r p st
  have hexcluded : Preparation.isExcluded s.excluded (Path.tidied "secrets/key.go") = true := by
    decide +kernel
  have halike : ∀ key, (r key).AlikeUnder s (r none) := fun key =>
    { files := .cons ⟨rfl, rfl, rfl, .inl ⟨rfl, rfl⟩⟩ <|
      .cons ⟨rfl, rfl, rfl, .inr (.inl hexcluded)⟩ .nil
      commits_eq := rfl
      defaultBranch_eq := rfl
      metadata_eq := rfl }
  have hsound : (Validation.fault? (r none)).isNone := by decide +kernel
  have hvalid : ∀ key room, (r key).validate room = .ok () := fun key room =>
    ((halike key).validate_eq room).trans (Repository.validate_eq_ok hsound)
  refine ⟨halike _, hvalid _ _, fun hsame => ?_⟩
  let x (key : Option String) : Plan := ⟨st, .standard, p, r key⟩
  have hreason : st.TellsReason :=
    Stages.tellsReason_standard .standard p s [Binary64.zero] { date := ⟨2024, 5, 1⟩ }
  have hnames : ((st.analyzers.settled []).map (·.name)).Nodup := by decide +kernel
  have hruns : ∀ key, ∃ a, (x key).run = .ok a ∧ a.value = (x key).survey ∧
      a.warnings = (x key).survey.warnings :=
    fun key => (x key).run_eq hreason hnames (hvalid key _) rfl rfl
  have hquality : (x (some "key")).quality = (x none).quality := by
    obtain ⟨a, ha, hvalue, -⟩ := hruns (some "key")
    obtain ⟨b, hb, hvalue', -⟩ := hruns none
    obtain rfl := Except.ok.inj (ha.symm.trans (hsame.trans hb))
    exact congrArg Survey.quality (hvalue.symm.trans hvalue')
  have hscores : ∀ key, ((x key).analyzable.map (·.path)).Nodup →
      (x key).quality = (x key).analyzable.map fun f => (Quality.score .standard p f).value := by
    intro key hpaths
    have hscored : ((x key).stages.quality (x key).analyzable).outcome.value = _ :=
      Quality.value_scoreFiles .standard p s.limits.qualityBatch hpaths
    rw [Plan.quality, Attempt.settled, hscored]
  rw [hscores _ (by decide +kernel), hscores _ (by decide +kernel)] at hquality
  exact absurd hquality (by decide +kernel)

end Survey
end CodeSurvey
