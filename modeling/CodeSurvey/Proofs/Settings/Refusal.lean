/-
# When settings cannot be read

A text of blanks holds nothing, and any other one what a loader reads it as
(`Settings.contentOf`). What is no YAML, or is neither a mapping nor null, is refused
(`Settings.Refused`). A mapping need not give settings either: a whole number too great for the
real number that it is to give fails, and so does one too long for the word that it is to give.
Each reader fails in one way only, and it is known when (`Settings.failsIff_numbersIn`,
`Settings.failsIff_wordListsIn`), so there is no other way for the reading of a text to come out
but that the loader itself fails otherwise (`Settings.comesOut_ofText`). `Settings.ofText_outcome`
draws this together for a loader that does not.
-/

import CodeSurvey.Proofs.Number.Order
import CodeSurvey.Proofs.Number.Overlong
import CodeSurvey.Proofs.Settings
import CodeSurvey.Proofs.Text

namespace CodeSurvey

namespace Settings

open Yaml (Document Loader Value)

/-! ## Numbers that cannot be read -/

/-- Whether a value is a whole number too great to be a real one. -/
def IsOverlarge (v : Option Value) : Prop :=
  ∃ n : Int, v = some (.integer n) ∧ Binary64.wholeEnd ≤ n.natAbs

/-- Whether a value is a whole number too long to be written out. -/
def IsOverlong (v : Value) : Prop := ∃ n : Int, v = .integer n ∧ 10 ^ Numeral.maxDigits ≤ n.natAbs

/-- Whether a value is a list with a whole number too long to be written out. -/
def HoldsOverlong (d : Document) (v : Option Value) : Prop :=
  ∃ ids, v = some (.sequence ids) ∧ ∃ id ∈ ids, IsOverlong (d.value id)

/-- Whether a real number among the settings is to be read from a whole number too great for one. -/
def HasOverlargeReal (d : Document) : Prop := ∃ k ∈ realSettings, IsOverlarge (k.value? d)

/-- Whether a list of words among the settings is to be read from one with a whole
number too long for a word. -/
def HasOverlongWord (d : Document) : Prop := ∃ k ∈ wordSettings, HoldsOverlong d (k.value? d)

open Outcome (FailsIff)

theorem isOverlarge_integer {n : Int} :
    IsOverlarge (some (.integer n)) ↔ Binary64.ofInt? n = none := by
  rw [Binary64.ofInt?_eq_none_iff]
  refine ⟨?_, fun h => ⟨n, rfl, h⟩⟩
  rintro ⟨m, hm, h⟩
  cases hm
  exact h

theorem failsIff_realOf? (v : Value) :
    FailsIff (realOf? v) .integerTooLarge (IsOverlarge (some v)) := by
  cases v with
  | integer n =>
    rw [isOverlarge_integer]
    unfold realOf?
    dsimp only
    generalize Binary64.ofInt? n = x
    cases x with
    | none => exact ⟨fun _ => rfl, fun h => absurd rfl h⟩
    | some x => exact (FailsIff.ok (some x)).congr (by simp)
  | _ => exact (FailsIff.ok _).congr (by simp [IsOverlarge])

theorem failsIff_wordOf? (v : Value) : FailsIff (wordOf? v) .endlessInteger (IsOverlong v) := by
  cases v with
  | integer n =>
    have hlong : IsOverlong (.integer n) ↔ Numeral.isEndless n = true := by
      simp [IsOverlong, Numeral.isEndless_iff]
    rw [wordOf?, hlong, Numeral.written]
    by_cases h : Numeral.isEndless n = true
    · rw [if_pos h]
      exact ⟨fun _ => rfl, fun hnot => absurd h hnot⟩
    · rw [if_neg h]
      exact (FailsIff.ok _).congr (iff_of_false not_false h)
  | _ => exact (FailsIff.ok _).congr (by simp [IsOverlong])

theorem failsIff_wordsOf (d : Document) (v : Option Value) :
    FailsIff (wordsOf d v) .endlessInteger (HoldsOverlong d v) := by
  rcases v with _ | v
  · exact (FailsIff.ok _).congr (by simp [HoldsOverlong])
  · cases v with
    | sequence ids =>
      refine ((FailsIff.mapM (fun id => failsIff_wordOf? (d.value id)) ids).map _).congr ?_
      simp [HoldsOverlong]
    | _ => exact (FailsIff.ok _).congr (by simp [HoldsOverlong])

theorem failsIff_realWhere (d : Document) (group : Option Value) (inRange : Binary64 → Bool)
    (key : String) (standard : Binary64) :
    FailsIff (realWhere d group inRange key standard) .integerTooLarge
      (IsOverlarge (memberIn d group key)) := by
  unfold realWhere
  cases memberIn d group key with
  | none => exact (FailsIff.ok _).congr (by simp [IsOverlarge])
  | some v => exact (failsIff_realOf? v).map _

theorem failsIff_limitsIn (d : Document) (group : Option Value) :
    FailsIff (limitsIn d group) .integerTooLarge
      (IsOverlarge (memberIn d group "architecture_timeout")) :=
  ((failsIff_realWhere ..).bind fun _ => .ok _).congr (by rw [or_false])

theorem failsIff_couplingIn (d : Document) (group : Option Value) :
    FailsIff (couplingIn d group) .integerTooLarge
      (∃ key ∈ ["min_strength", "directory_weight", "naming_weight", "index_weight"],
        IsOverlarge (memberIn d group key)) := by
  refine ((failsIff_realWhere ..).bind fun _ => (failsIff_realWhere ..).bind fun _ =>
    (failsIff_realWhere ..).bind fun _ => (failsIff_realWhere ..).bind fun _ => .ok _).congr ?_
  simp

/-- The numbers in groups of a document. -/
def numbersIn (d : Document) : Except Failure (Limits × CouplingSettings) := do
  let limits ← limitsIn d (d.member? "limits" (d.value d.root))
  let coupling ← couplingIn d (d.member? "coupling" (d.value d.root))
  return (limits, coupling)

/-- The lists of words of a document. -/
def wordListsIn (d : Document) : Except Failure (List String × List String) := do
  let analyzers ← wordsOf d (memberIn d (d.member? "analyzers" (d.value d.root)) "enabled")
  let excluded ← wordsOf d (d.member? "exclude_paths" (d.value d.root))
  return (analyzers, excluded)

/-- The numbers of a document cannot be read if one is too great for a real number. -/
theorem failsIff_numbersIn (d : Document) :
    FailsIff (numbersIn d) .integerTooLarge (HasOverlargeReal d) := by
  refine ((failsIff_limitsIn ..).bind fun _ => (failsIff_couplingIn ..).bind fun _ =>
    .ok _).congr ?_
  simp [HasOverlargeReal, realSettings, Setting.weight, Setting.value?]

/-- The words of a document cannot be read if one is a whole number too long to be written out. -/
theorem failsIff_wordListsIn (d : Document) :
    FailsIff (wordListsIn d) .endlessInteger (HasOverlongWord d) := by
  refine ((failsIff_wordsOf ..).bind fun _ => (failsIff_wordsOf ..).bind fun _ => .ok _).congr ?_
  simp [HasOverlongWord, wordSettings, Setting.value?]

section Document

variable {d : Document} {ps : List (Nat × Nat)}

/-- Of a mapping the numbers are read first, and then the words. -/
theorem ofDocument_of_mapping (h : d.value d.root = .mapping ps) :
    ofDocument d = numbersIn d >>= fun numbers => wordListsIn d >>= fun words =>
      .ok { limits := numbers.1, coupling := numbers.2, analyzers := words.1, excluded := words.2,
            maxWorkers := (((d.member? "max_workers" (d.value d.root)).bind wholeOf?).filter
              (0 < ·)).getD 4 } := by
  simp only [ofDocument, numbersIn, wordListsIn, h, bind_assoc, pure_bind]
  rfl

theorem ofDocument_of_overlarge (h : d.value d.root = .mapping ps) (hreal : HasOverlargeReal d) :
    ofDocument d = .error .integerTooLarge := by
  rw [ofDocument_of_mapping h, (failsIff_numbersIn d).fails hreal]
  rfl

theorem ofDocument_of_overlong (h : d.value d.root = .mapping ps) (hreal : ¬ HasOverlargeReal d)
    (hword : HasOverlongWord d) : ofDocument d = .error .endlessInteger := by
  obtain ⟨numbers, hnumbers⟩ := (failsIff_numbersIn d).succeeds hreal
  rw [ofDocument_of_mapping h, hnumbers, (failsIff_wordListsIn d).fails hword]
  rfl

theorem exists_ofDocument (h : d.value d.root = .mapping ps) (hreal : ¬ HasOverlargeReal d)
    (hword : ¬ HasOverlongWord d) : ∃ s, ofDocument d = .ok s := by
  obtain ⟨numbers, hnumbers⟩ := (failsIff_numbersIn d).succeeds hreal
  obtain ⟨words, hwords⟩ := (failsIff_wordListsIn d).succeeds hword
  rw [ofDocument_of_mapping h, hnumbers, hwords]
  exact ⟨_, rfl⟩

/-- Only a mapping has values under keys. -/
theorem exists_mapping_of_value? {α : Type} {k : Setting α} {v : Value} (h : k.value? d = some v) :
    ∃ ps, d.value d.root = .mapping ps := by
  have hmember : ∀ key w, d.member? key (d.value d.root) = some w →
      ∃ ps, d.value d.root = .mapping ps := by
    intro key w hw
    unfold Document.member? at hw
    split at hw
    · rename_i ps hroot
      exact ⟨ps, hroot⟩
    · cases hw
  unfold Setting.value? at h
  split at h
  · exact hmember _ _ h
  · obtain ⟨group, hgroup, -⟩ := Option.bind_eq_some_iff.1 h
    exact hmember _ _ hgroup

theorem exists_mapping_of_hasOverlargeReal (h : HasOverlargeReal d) :
    ∃ ps, d.value d.root = .mapping ps := by
  obtain ⟨k, -, n, hn, -⟩ := h
  exact exists_mapping_of_value? hn

theorem exists_mapping_of_hasOverlongWord (h : HasOverlongWord d) :
    ∃ ps, d.value d.root = .mapping ps := by
  obtain ⟨k, -, ids, hids, -⟩ := h
  exact exists_mapping_of_value? hids

end Document

/-! ## What a text comes to -/

/-- What a text holds: nothing if there are only blanks, and else the
document that it is read as. -/
def contentOf (load : Loader) (text : String) : Except Failure (Option Document) :=
  if text.toList.all Text.isBlank then .ok none else some <$> load text

theorem isEmpty_trimmed (text : String) :
    (Text.trimmed text).isEmpty = text.toList.all Text.isBlank := by
  rw [Bool.eq_iff_iff, String.isEmpty_iff, List.all_eq_true, Text.trimmed,
    String.ofList_eq_empty_iff]
  refine ⟨fun h c hc => ?_, Text.trim_of_blank⟩
  by_contra hnot
  exact Text.trim_ne_nil hc (Bool.eq_false_iff.2 hnot) h

/-- Why what a text holds is refused: it is no YAML, or what is read is
neither a mapping nor null. -/
inductive Refused (load : Loader) (name text : String) : String → Prop
  | malformed {said : String} (h : contentOf load text = .error (.notYaml said)) :
      Refused load name text ("Failed to parse " ++ name ++ said)
  | notMapping {d : Document} (h : contentOf load text = .ok (some d))
      (hnull : d.value d.root ≠ .null)
      (hmapping : ∀ ps, d.value d.root ≠ .mapping ps) :
      Refused load name text (fileName ++ " must contain a mapping at the root")

section Text

variable {load : Loader} {name text reason : String} {d : Document} {content : Option Document}

theorem ofText_eq (load : Loader) (name text : String) :
    ofText load name text =
      match contentOf load text with
      | .error (.notYaml said) => .error (.badConfiguration ("Failed to parse " ++ name ++ said))
      | .error f => .error f
      | .ok none => .ok {}
      | .ok (some d) => ofDocument d := by
  unfold ofText contentOf
  rw [isEmpty_trimmed]
  split
  · rfl
  · cases load text with
    | ok d => rfl
    | error f => cases f <;> rfl

theorem ofText_of_document (h : contentOf load text = .ok (some d)) :
    ofText load name text = ofDocument d := by
  rw [ofText_eq, h]

/-- Any other failure of the loader passes. -/
theorem ofText_of_failure {f : Failure} (h : contentOf load text = .error f)
    (hf : ∀ said, f ≠ .notYaml said) : ofText load name text = .error f := by
  rw [ofText_eq, h]
  cases f with
  | notYaml said => exact absurd rfl (hf said)
  | _ => rfl

theorem ofText_of_refused (h : Refused load name text reason) :
    ofText load name text = .error (.badConfiguration reason) := by
  cases h with
  | malformed h => rw [ofText_eq, h]
  | notMapping h hnull hmapping =>
    rw [ofText_of_document h]
    unfold ofDocument
    dsimp only
    split
    · rename_i hroot
      exact absurd hroot hnull
    · rename_i ps hroot
      exact absurd hroot (hmapping ps)
    · rfl

theorem ofText_of_overlarge (h : contentOf load text = .ok (some d)) (hreal : HasOverlargeReal d) :
    ofText load name text = .error .integerTooLarge := by
  obtain ⟨ps, hps⟩ := exists_mapping_of_hasOverlargeReal hreal
  rw [ofText_of_document h, ofDocument_of_overlarge hps hreal]

theorem ofText_of_overlong (h : contentOf load text = .ok (some d)) (hreal : ¬ HasOverlargeReal d)
    (hword : HasOverlongWord d) : ofText load name text = .error .endlessInteger := by
  obtain ⟨ps, hps⟩ := exists_mapping_of_hasOverlongWord hword
  rw [ofText_of_document h, ofDocument_of_overlong hps hreal hword]

/-- What is not refused and holds no number too great or too long gives settings. -/
theorem exists_ofText (h : contentOf load text = .ok content)
    (hroot : ∀ reason, ¬ Refused load name text reason) (hnumbers : ∀ d ∈ content,
        ¬ HasOverlargeReal d ∧ ¬ HasOverlongWord d) : ∃ s, ofText load name text = .ok s := by
  cases content with
  | none => exact ⟨{}, by rw [ofText_eq, h]⟩
  | some d =>
    obtain ⟨hreal, hword⟩ := hnumbers d rfl
    rw [ofText_of_document h]
    by_cases hmapping : ∃ ps, d.value d.root = .mapping ps
    · obtain ⟨ps, hps⟩ := hmapping
      exact exists_ofDocument hps hreal hword
    · by_cases hnull : d.value d.root = .null
      · exact ⟨{}, by rw [ofDocument, hnull]; rfl⟩
      · exact absurd (.notMapping h hnull (not_exists.1 hmapping)) (hroot _)

/-- How the reading of a text comes out, with what it takes to come to it. -/
inductive ComesOut (load : Loader) (name text : String) : Except Failure Settings → Prop
  | refused {reason : String} (h : Refused load name text reason) :
      ComesOut load name text (.error (.badConfiguration reason))
  | failed {f : Failure} (h : contentOf load text = .error f) (hf : ∀ said, f ≠ .notYaml said) :
      ComesOut load name text (.error f)
  | overlarge {d : Document} (h : contentOf load text = .ok (some d)) (hreal : HasOverlargeReal d) :
      ComesOut load name text (.error .integerTooLarge)
  | overlong {d : Document} (h : contentOf load text = .ok (some d)) (hreal : ¬ HasOverlargeReal d)
      (hword : HasOverlongWord d) : ComesOut load name text (.error .endlessInteger)
  | settings {content : Option Document} {s : Settings} (h : contentOf load text = .ok content)
      (hroot : ∀ reason, ¬ Refused load name text reason)
      (hnumbers : ∀ d ∈ content, ¬ HasOverlargeReal d ∧ ¬ HasOverlongWord d) :
        ComesOut load name text (.ok s)

/-- There is no other way for the reading of a text to come out. -/
theorem comesOut_ofText (load : Loader) (name text : String) :
    ComesOut load name text (ofText load name text) := by
  by_cases hrefused : ∃ reason, Refused load name text reason
  · obtain ⟨reason, hreason⟩ := hrefused
    rw [ofText_of_refused hreason]
    exact .refused hreason
  · have hroot := not_exists.1 hrefused
    cases h : contentOf load text with
    | error f =>
      have hf : ∀ said, f ≠ .notYaml said := by
        rintro said rfl
        exact absurd (.malformed h) (hroot _)
      rw [ofText_of_failure h hf]
      exact .failed h hf
    | ok content =>
      by_cases hreal : ∃ d ∈ content, HasOverlargeReal d
      · obtain ⟨d, rfl, hreal⟩ := hreal
        rw [ofText_of_overlarge h hreal]
        exact .overlarge h hreal
      · have hreal' : ∀ d ∈ content, ¬ HasOverlargeReal d :=
          fun d hd hlarge => hreal ⟨d, hd, hlarge⟩
        by_cases hword : ∃ d ∈ content, HasOverlongWord d
        · obtain ⟨d, rfl, hword⟩ := hword
          rw [ofText_of_overlong h (hreal' d rfl) hword]
          exact .overlong h (hreal' d rfl) hword
        · have hnumbers : ∀ d ∈ content, ¬ HasOverlargeReal d ∧ ¬ HasOverlongWord d :=
            fun d hd => ⟨hreal' d hd, fun hlong => hword ⟨d, hd, hlong⟩⟩
          obtain ⟨s, hs⟩ := exists_ofText h hroot hnumbers
          rw [hs]
          exact .settings h hroot hnumbers

/-- A loader that only ever says that a text is no YAML fails in no other way. -/
theorem not_failed {f : Failure} (hload : ∀ f, load text = .error f → ∃ said, f = .notYaml said)
    (h : contentOf load text = .error f) : ∃ said, f = .notYaml said := by
  unfold contentOf at h
  split at h
  · cases h
  · cases hread : load text with
    | ok d =>
      rw [hread] at h
      cases h
    | error g =>
      rw [hread] at h
      obtain rfl := Except.error.inj h
      exact hload _ hread

/-- A loader does not fail at a text of which it gives a document. -/
theorem notYaml_of_load (h : load text = .ok d) :
    ∀ f, load text = .error f → ∃ said, f = .notYaml said := by
  intro f hf
  cases h.symm.trans hf

/-- More than blanks is as it is loaded. -/
theorem contentOf_of_load (h : load text = .ok d) (hblank : text.toList.all Text.isBlank = false) :
    contentOf load text = .ok (some d) := by
  rw [contentOf, hblank, h]
  rfl

theorem documentOf_of_load (h : load text = .ok d) (hblank : text.toList.all Text.isBlank = false) :
    documentOf load text = d := by
  rw [documentOf, isEmpty_trimmed, hblank, h]
  rfl

end Text

/-- **How the reading of a text comes out** with a loader that gives a document of it or says that
it is no YAML. It is refused exactly if it holds more than blanks and is no YAML, or is read as
something else than a mapping or null. There are two other ways to fail: a whole number too great
for the real number it is to give, and one too long for the word it is to give. Every other text
gives settings, and each of them is as the value under its own key tells. -/
theorem ofText_outcome {load : Loader} {text : String}
    (hload : ∀ f, load text = .error f → ∃ said, f = .notYaml said) (name : String) :
    (∀ reason, ofText load name text = .error (.badConfiguration reason) ↔
      Refused load name text reason) ∧
    (ofText load name text = .error .integerTooLarge ↔
      ∃ d, contentOf load text = .ok (some d) ∧ HasOverlargeReal d) ∧
    (ofText load name text = .error .endlessInteger ↔
      ∃ d, contentOf load text = .ok (some d) ∧ ¬ HasOverlargeReal d ∧ HasOverlongWord d) ∧
    (∀ f, ofText load name text = .error f →
      f = .integerTooLarge ∨ f = .endlessInteger ∨ ∃ reason, f = .badConfiguration reason) ∧
    ((∃ s, ofText load name text = .ok s) ↔
      ∃ content, contentOf load text = .ok content ∧ (∀ reason, ¬ Refused load name text reason) ∧
        ∀ d ∈ content, ¬ HasOverlargeReal d ∧ ¬ HasOverlongWord d) ∧
    ∀ s, ofText load name text = .ok s →
      (∀ k ∈ wholeSettings, k.IsRead GivesWhole (k.value? (documentOf load text)) s) ∧
      (∀ k ∈ realSettings, k.IsRead GivesReal (k.value? (documentOf load text)) s) ∧
      ∀ k ∈ wordSettings, wordsOf (documentOf load text) (k.value? (documentOf load text)) =
        .ok (k.get s) := by
  have hout := comesOut_ofText load name text
  have hnever {f : Failure} (h : contentOf load text = .error f)
      (hf : ∀ said, f ≠ .notYaml said) : False := by
    obtain ⟨said, hsaid⟩ := not_failed hload h
    exact hf said hsaid
  refine ⟨fun reason => ⟨fun h => ?_, ofText_of_refused⟩, ⟨fun h => ?_, ?_⟩, ⟨fun h => ?_, ?_⟩,
    fun f h => ?_, ⟨?_, ?_⟩, fun s hs => ?_⟩
  · rw [h] at hout
    cases hout with
    | refused hreason => exact hreason
    | failed hread hf => exact (hnever hread hf).elim
  · rw [h] at hout
    cases hout with
    | overlarge hread hreal => exact ⟨_, hread, hreal⟩
    | failed hread hf => exact (hnever hread hf).elim
  · rintro ⟨d, hread, hreal⟩
    exact ofText_of_overlarge hread hreal
  · rw [h] at hout
    cases hout with
    | overlong hread hreal hword => exact ⟨_, hread, hreal, hword⟩
    | failed hread hf => exact (hnever hread hf).elim
  · rintro ⟨d, hread, hreal, hword⟩
    exact ofText_of_overlong hread hreal hword
  · rw [h] at hout
    cases hout with
    | refused => exact .inr (.inr ⟨_, rfl⟩)
    | failed hread hf => exact (hnever hread hf).elim
    | overlarge => exact .inl rfl
    | overlong => exact .inr (.inl rfl)
  · rintro ⟨s, hs⟩
    rw [hs] at hout
    cases hout with
    | settings hread hroot hnumbers => exact ⟨_, hread, hroot, hnumbers⟩
  · rintro ⟨content, hread, hroot, hnumbers⟩
    exact exists_ofText hread hroot hnumbers
  · have hread := readFrom_of_ofText hs
    exact ⟨fun k hk => Setting.isRead_of_eq givesWhole_iff (hread.whole_eq hk),
      fun k hk => Setting.isRead_of_eq givesReal_iff (hread.real_eq hk), fun k hk =>
        hread.words_eq hk⟩

/-- A list is refused, and a number of workers that is out of its range leaves the standard one. -/
theorem ofText_outcome_of_list_and_workers :
    let list := "- just\n- a list\n"
    let workers := "max_workers: -2\n"
    (∀ f, Yaml.load list = .error f → ∃ said, f = .notYaml said) ∧
      (∀ f, Yaml.load workers = .error f → ∃ said, f = .notYaml said) ∧
      ofText Yaml.load fileName list =
        .error (.badConfiguration (fileName ++ " must contain a mapping at the root")) ∧
      ∃ s, ofText Yaml.load fileName workers = .ok s ∧ s.maxWorkers = 4 := by
  intro list workers
  let setting : Setting Int := ⟨none, "max_workers", (0 < ·), (·.maxWorkers)⟩
  have hsetting : wholeSettings[14]? = some setting := rfl
  have hlist : (Yaml.load list).toOption.map (fun d => d.value d.root) =
      some (.sequence [1, 2]) := by
    decide +kernel
  have hworkers : (Yaml.load workers).toOption.map setting.value? =
      some (some (.integer (-2))) := by
    decide +kernel
  have hok : (ofText Yaml.load fileName workers).isOk := by decide +kernel
  obtain ⟨d, hd, hroot⟩ := Outcome.exists_ok_of_toOption_map hlist
  obtain ⟨e, he, hvalue⟩ := Outcome.exists_ok_of_toOption_map hworkers
  obtain ⟨s, hs⟩ := Outcome.exists_eq_ok hok
  have hrefused : Refused Yaml.load fileName list _ :=
    .notMapping (contentOf_of_load hd (by decide)) (by simp [hroot]) (by simp [hroot])
  refine ⟨notYaml_of_load hd, notYaml_of_load he,
    ((ofText_outcome (notYaml_of_load hd) _).1 _).2 hrefused, s, hs, ?_⟩
  obtain ⟨hwhole, -, -⟩ := (ofText_outcome (notYaml_of_load he) _).2.2.2.2.2 s hs
  refine (hwhole setting (List.mem_of_getElem? hsetting)).standard fun w x hw hx => ?_
  rw [documentOf_of_load he (by decide), hvalue] at hw
  cases hw
  cases hx
  decide

/-- A weight of `2¹⁰²⁴` gives neither settings nor a refusal. The loader reads this text as a
mapping with the weight in its group. -/
theorem great_weight_fails :
    let text := String.ofList ("coupling:\n  min_strength: 0x1".toList ++
      List.replicate 256 '0' ++ ['\n'])
    let value : Nat → Value
      | 0 => .mapping [(1, 2)]
      | 1 => .text "coupling"
      | 2 => .mapping [(3, 4)]
      | 3 => .text "min_strength"
      | _ => .integer (2 ^ 1024)
    let load : Loader := fun _ => .ok ⟨value, 0⟩
    (∀ f, load text = .error f → ∃ said, f = .notYaml said) ∧ value 0 = .mapping [(1, 2)] ∧
      ofText load fileName text = .error .integerTooLarge := by
  intro text value load
  have hread : load text = .ok ⟨value, 0⟩ := rfl
  have hblank : text.toList.all Text.isBlank = false := by
    -- The characters of the text are given, so they need not be decoded.
    simp only [text, String.toList_ofList]
    decide
  let strength : Setting Binary64 := .weight "min_strength" (·.minStrength)
  have hstrength : realSettings[1]? = some strength := rfl
  have hgreat : IsOverlarge (strength.value? ⟨value, 0⟩) :=
    ⟨2 ^ 1024, by decide +kernel, by decide +kernel⟩
  refine ⟨notYaml_of_load hread, rfl, ofText_of_overlarge (contentOf_of_load hread hblank) ?_⟩
  exact ⟨strength, List.mem_of_getElem? hstrength, hgreat⟩

end Settings
end CodeSurvey
