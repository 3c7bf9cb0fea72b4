/-
# Settings are as their own values tell

Each setting has a key of its own, at the root or in a group, and a range. Three tables name them
all (`Settings.ext_of_settings`). A reading looks up the value under the key and keeps the number
that it gives where this is in the range, and the standard value where it gives none
(`ReadFrom.whole_eq`, `ReadFrom.real_eq`). A truth value gives no number. The standard values are in
their ranges, so all settings are, whatever text they come from and whatever reads it
(`Settings.ofText_inRange`): ceilings are positive, and weights are numbers that are not negative,
though one may be infinite. Of the rest of what is read a setting sees nothing
(`Settings.ofText_exact`).
-/

import CodeSurvey.Proofs.Outcome
import CodeSurvey.Settings.Reader
import CodeSurvey.Yaml.Reader

namespace CodeSurvey

/-- Whether the ceilings of a run are positive. -/
structure Limits.InRange (l : Limits) : Prop where
  maxFileSize : 0 < l.maxFileSize
  maxCommits : 0 < l.maxCommits
  largeRepository : 0 < l.largeRepository
  fallbackSample : 0 < l.fallbackSample
  fallbackEdges : 0 < l.fallbackEdges
  fallbackChain : 0 < l.fallbackChain
  architectureTimeout : Binary64.zero.lt l.architectureTimeout
  qualityBatch : 0 < l.qualityBatch

/-- Whether the thresholds of the coupling signals are positive and their weights not negative. -/
structure CouplingSettings.InRange (s : CouplingSettings) : Prop where
  windowDays : 0 < s.windowDays
  maxCommits : 0 < s.maxCommits
  maxFanout : 0 < s.maxFanout
  minCoChanges : 0 < s.minCoChanges
  minStrength : Binary64.zero.le s.minStrength
  maxPairs : 0 < s.maxPairs
  structuralFiles : 0 < s.structuralFiles
  sparsePairs : 0 < s.sparsePairs
  directoryWeight : Binary64.zero.le s.directoryWeight
  namingWeight : Binary64.zero.le s.namingWeight
  indexWeight : Binary64.zero.le s.indexWeight

/-- Whether the settings of a survey are within their ranges. -/
structure Settings.InRange (s : Settings) : Prop where
  limits : s.limits.InRange
  coupling : s.coupling.InRange
  maxWorkers : 0 < s.maxWorkers

/-- The standard ceilings are positive. -/
theorem Limits.standard_inRange : ({} : Limits).InRange := by
  constructor <;> decide +kernel

/-- The standard thresholds and weights are within their ranges. -/
theorem CouplingSettings.standard_inRange : ({} : CouplingSettings).InRange := by
  constructor <;> decide +kernel

open Yaml (Document Loader Value)

/-- A setting: the key of its group if it is in one, its own key, its range and its
place among the settings. -/
structure Setting (α : Type) where
  group : Option String
  key : String
  inRange : α → Bool
  get : Settings → α

namespace Setting

variable {α : Type}

/-- The ceiling of a run under a key. -/
def limit (key : String) (get : Limits → Int) : Setting Int :=
  { group := some "limits", key, inRange := (0 < ·), get := fun s => get s.limits }

/-- The threshold of the coupling signals under a key. -/
def threshold (key : String) (get : CouplingSettings → Int) : Setting Int :=
  { group := some "coupling", key, inRange := (0 < ·), get := fun s => get s.coupling }

/-- The weight of a coupling signal under a key. -/
def weight (key : String) (get : CouplingSettings → Binary64) : Setting Binary64 :=
  { group := some "coupling", key, inRange := Binary64.le .zero, get := fun s => get s.coupling }

/-- The value under the key of a setting. -/
def value? (k : Setting α) (d : Document) : Option Value :=
  match k.group with
  | none => d.member? k.key (d.value d.root)
  | some g => Settings.memberIn d (d.member? g (d.value d.root)) k.key

/-- Whether a setting is as a value tells: what the value gives where that is in the range of the
setting, and the standard one where the value gives nothing in it. -/
structure IsRead (k : Setting α) (gives : Value → α → Prop) (v : Option Value)
    (s : Settings) : Prop where
  given : ∀ w x, v = some w → gives w x → k.inRange x → k.get s = x
  standard : (∀ w x, v = some w → gives w x → ¬ k.inRange x) → k.get s = k.get {}

/-- A setting that keeps what is read in its range is as its value tells. -/
theorem isRead_of_eq {k : Setting α} {gives : Value → α → Prop} {read : Value → Option α}
    (hgives : ∀ w x, gives w x ↔ read w = some x) {v : Option Value} {s : Settings}
    (h : k.get s = ((v.bind read).filter k.inRange).getD (k.get {})) : k.IsRead gives v s where
  given w x hv hx hrange := by
    rw [h, hv, Option.bind_some, (hgives w x).1 hx, Option.filter_some_pos hrange, Option.getD_some]
  standard hnone := by
    cases hx : (v.bind read).filter k.inRange with
    | none => rw [h, hx, Option.getD_none]
    | some x =>
      obtain ⟨hread, hrange⟩ := Option.filter_eq_some_iff.1 hx
      obtain ⟨w, hw, hwx⟩ := Option.bind_eq_some_iff.1 hread
      exact absurd hrange (hnone w x hw ((hgives w x).2 hwx))

/-- A setting keeps its standard value where its value gives nothing. -/
theorem IsRead.eq_standard {k : Setting α} {gives : Value → α → Prop} {v : Option Value}
    {s : Settings} (h : k.IsRead gives v s) {w : Value} (hv : v = some w) (hw : ∀ x, ¬ gives w x) :
    k.get s = k.get {} := by
  refine h.standard fun w' x hw' hx => ?_
  rw [hv] at hw'
  cases hw'
  exact absurd hx (hw x)

end Setting

namespace Settings

/-! ## The settings and their keys -/

/-- The settings that are whole numbers. -/
def wholeSettings : List (Setting Int) :=
  [ .limit "max_file_size" (·.maxFileSize), .limit "max_commits" (·.maxCommits),
    .limit "large_repo_threshold" (·.largeRepository),
    .limit "fallback_sample_size" (·.fallbackSample),
    .limit "fallback_edge_cap" (·.fallbackEdges), .limit "fallback_chain_cap" (·.fallbackChain),
    .limit "quality_batch_size" (·.qualityBatch), .threshold "window_days" (·.windowDays),
    .threshold "max_commits" (·.maxCommits), .threshold "max_commit_fanout" (·.maxFanout),
    .threshold "min_co_changes" (·.minCoChanges), .threshold "max_pairs" (·.maxPairs),
    .threshold "structural_file_threshold" (·.structuralFiles),
    .threshold "sparse_pair_threshold" (·.sparsePairs),
    { group := none, key := "max_workers", inRange := (0 < ·), get := (·.maxWorkers) } ]

/-- The settings that are real numbers. -/
def realSettings : List (Setting Binary64) :=
  [ { group := some "limits", key := "architecture_timeout", inRange := Binary64.lt .zero,
      get := (·.limits.architectureTimeout) },
    .weight "min_strength" (·.minStrength), .weight "directory_weight" (·.directoryWeight),
    .weight "naming_weight" (·.namingWeight), .weight "index_weight" (·.indexWeight) ]

/-- The settings that are lists of words. -/
def wordSettings : List (Setting (List String)) :=
  [ { group := some "analyzers", key := "enabled", inRange := fun _ => true, get := (·.analyzers) },
    { group := none, key := "exclude_paths", inRange := fun _ => true, get := (·.excluded) } ]

/-- Settings that are the same under each key are the same. -/
theorem ext_of_settings {s t : Settings} (hwhole : ∀ k ∈ wholeSettings, k.get s = k.get t)
    (hreal : ∀ k ∈ realSettings, k.get s = k.get t)
    (hwords : ∀ k ∈ wordSettings, k.get s = k.get t) : s = t := by
  obtain ⟨⟨⟩, ⟨⟩, _, _, _⟩ := s
  obtain ⟨⟨⟩, ⟨⟩, _, _, _⟩ := t
  simp_all [wholeSettings, realSettings, wordSettings, Setting.limit, Setting.threshold,
    Setting.weight]

/-- Settings are within their ranges when each number among them is. -/
theorem inRange_iff {s : Settings} :
    s.InRange ↔ (∀ k ∈ wholeSettings, k.inRange (k.get s)) ∧ ∀ k ∈ realSettings,
      k.inRange (k.get s) := by
  simp only [wholeSettings, realSettings, List.forall_mem_cons, Setting.limit, Setting.threshold,
    Setting.weight, decide_eq_true_eq]
  constructor
  · rintro ⟨⟨⟩, ⟨⟩, hworkers⟩
    simp_all
  · intro h
    refine ⟨?_, ?_, by simp_all⟩ <;> constructor <;> simp_all

/-- The standard settings are within their ranges. -/
theorem standard_inRange : ({} : Settings).InRange :=
  ⟨Limits.standard_inRange, CouplingSettings.standard_inRange, by decide⟩

/-- A number that is not below zero, or above it, is defined. -/
theorem ne_nan_of_inRange {k : Setting Binary64} (hk : k ∈ realSettings) {x : Binary64}
    (h : k.inRange x) : x ≠ .nan := by
  rintro rfl
  simp only [realSettings, List.mem_cons, List.not_mem_nil, or_false] at hk
  -- No comparison with an undefined number holds.
  rcases hk with rfl | rfl | rfl | rfl | rfl <;> exact absurd h (by decide)

/-- What passes a test or is replaced by something that does passes it. -/
theorem getD_filter {α : Type} {p : α → Bool} {standard : α} (h : p standard) (x : Option α) :
    p ((x.filter p).getD standard) := by
  cases hx : x.filter p with
  | none => exact h
  | some a => exact (Option.filter_eq_some_iff.1 hx).2

/-! ## What a value gives -/

/-- Whether a value gives a whole number: it is the number or a text that spells it. -/
inductive GivesWhole : Value → Int → Prop
  | integer (n : Int) : GivesWhole (.integer n) n
  | text {s : String} {n : Int} (h : Numeral.integer? s.toList = some n) : GivesWhole (.text s) n

/-- Whether a value gives a real number: it is the number, a whole number that it stands for, or
a text that spells it. -/
inductive GivesReal : Value → Binary64 → Prop
  | integer {n : Int} {x : Binary64} (h : Binary64.ofInt? n = some x) : GivesReal (.integer n) x
  | real (x : Binary64) : GivesReal (.real x) x
  | text {s : String} {x : Binary64} (h : Numeral.real? s.toList = some x) : GivesReal (.text s) x

/-- The real number that a value gives. -/
def realAt? : Value → Option Binary64
  | .integer n => Binary64.ofInt? n
  | .real x => some x
  | .text s => Numeral.real? s.toList
  | _ => none

theorem givesWhole_iff (v : Value) (n : Int) : GivesWhole v n ↔ wholeOf? v = some n := by
  constructor
  · rintro (_ | h)
    · rfl
    · exact h
  · intro h
    cases v with
    | integer m =>
      rw [← Option.some.inj h]
      exact .integer m
    | text s => exact .text h
    | _ => cases h

theorem givesReal_iff (v : Value) (x : Binary64) : GivesReal v x ↔ realAt? v = some x := by
  constructor
  · rintro (h | _ | h)
    · exact h
    · rfl
    · exact h
  · intro h
    cases v with
    | integer n => exact .integer h
    | real y =>
      rw [← Option.some.inj h]
      exact .real y
    | text s => exact .text h
    | _ => cases h

/-- What a real number is read from gives it. -/
theorem eq_realAt? {v : Value} {x : Option Binary64} (h : realOf? v = .ok x) : x = realAt? v := by
  unfold realOf? at h
  split at h
  · split at h
    · rename_i y hy
      rw [← Except.ok.inj h]
      exact hy.symm
    · cases h
  · exact (Except.ok.inj h).symm
  · exact (Except.ok.inj h).symm
  · rw [← Except.ok.inj h]
    cases v <;> simp_all [realAt?]

/-- A truth value gives no whole number. -/
theorem not_givesWhole_boolean (b : Bool) (n : Int) : ¬ GivesWhole (.boolean b) n := nofun

/-- A truth value gives no real number. -/
theorem not_givesReal_boolean (b : Bool) (x : Binary64) : ¬ GivesReal (.boolean b) x := nofun

/-! ## How a document is read -/

/-- Whether settings are read from a document, in which a null root counts as a
mapping without keys. -/
structure ReadFrom (d : Document) (s : Settings) : Prop where
  limits : limitsIn d (d.member? "limits" (d.value d.root)) = .ok s.limits
  coupling : couplingIn d (d.member? "coupling" (d.value d.root)) = .ok s.coupling
  analyzers : wordsOf d (memberIn d (d.member? "analyzers" (d.value d.root)) "enabled") =
    .ok s.analyzers
  excluded : wordsOf d (d.member? "exclude_paths" (d.value d.root)) = .ok s.excluded
  maxWorkers : s.maxWorkers =
    (((d.member? "max_workers" (d.value d.root)).bind wholeOf?).filter (0 < ·)).getD 4

theorem limitsIn_none (d : Document) : limitsIn d none = .ok {} := by
  simp only [limitsIn, realWhere, ceiling, memberIn, Option.bind_none, Option.filter_none,
    Option.getD_none]
  rfl

theorem couplingIn_none (d : Document) : couplingIn d none = .ok {} := by
  simp only [couplingIn, realWhere, ceiling, memberIn, Option.bind_none, Option.filter_none,
    Option.getD_none]
  rfl

theorem readFrom_null {d : Document} (h : d.value d.root = .null) : ReadFrom d {} := by
  have hnone (key : String) : d.member? key (d.value d.root) = none := by rw [h]; rfl
  refine ⟨?_, ?_, ?_, ?_, ?_⟩ <;> rw [hnone]
  · exact limitsIn_none d
  · exact couplingIn_none d
  all_goals rfl

theorem readFrom_of_ofDocument {d : Document} {s : Settings} (h : ofDocument d = .ok s) :
    ReadFrom d s := by
  unfold ofDocument at h
  dsimp only at h
  split at h
  · rename_i hnull
    cases h
    exact readFrom_null hnull
  · obtain ⟨limits, hlimits, h⟩ := Outcome.bind_eq_ok.1 h
    obtain ⟨coupling, hcoupling, h⟩ := Outcome.bind_eq_ok.1 h
    obtain ⟨analyzers, hanalyzers, h⟩ := Outcome.bind_eq_ok.1 h
    obtain ⟨excluded, hexcluded, h⟩ := Outcome.bind_eq_ok.1 h
    cases h
    exact ⟨hlimits, hcoupling, hanalyzers, hexcluded, rfl⟩
  · cases h

/-- A real number under a key is what its value gives, where that is in the range. -/
theorem eq_of_realWhere {d : Document} {group : Option Value} {inRange : Binary64 → Bool}
    {key : String} {standard x : Binary64} (h : realWhere d group inRange key standard = .ok x) :
    x = (((memberIn d group key).bind realAt?).filter inRange).getD standard := by
  unfold realWhere at h
  split at h
  · rename_i hv
    rw [hv, ← Except.ok.inj h]
    rfl
  · rename_i v hv
    cases hreal : realOf? v with
    | error e =>
      rw [hreal] at h
      cases h
    | ok y =>
      rw [hreal] at h
      rw [hv, ← Except.ok.inj h, eq_realAt? hreal, Option.bind_some]

namespace ReadFrom

variable {d : Document} {s : Settings}

/-- A whole number among the settings is the one that its value gives, where
that is in its range. -/
theorem whole_eq (h : ReadFrom d s) {k : Setting Int} (hk : k ∈ wholeSettings) :
    k.get s = (((k.value? d).bind wholeOf?).filter k.inRange).getD (k.get {}) := by
  obtain ⟨timeout, -, hlimits⟩ := Outcome.bind_eq_ok.1 h.limits
  obtain ⟨minStrength, -, hcoupling⟩ := Outcome.bind_eq_ok.1 h.coupling
  obtain ⟨directoryWeight, -, hcoupling⟩ := Outcome.bind_eq_ok.1 hcoupling
  obtain ⟨namingWeight, -, hcoupling⟩ := Outcome.bind_eq_ok.1 hcoupling
  obtain ⟨indexWeight, -, hcoupling⟩ := Outcome.bind_eq_ok.1 hcoupling
  have hworkers := h.maxWorkers
  -- Whatever the real numbers are, each whole number stands in its place as it was read.
  obtain ⟨limits, coupling, analyzers, excluded, maxWorkers⟩ := s
  cases hlimits
  cases hcoupling
  cases hworkers
  simp only [wholeSettings, List.mem_cons, List.not_mem_nil, or_false] at hk
  rcases hk with rfl | rfl | rfl | rfl | rfl | rfl | rfl | rfl | rfl | rfl | rfl | rfl | rfl | rfl |
      rfl <;> rfl

/-- A real number among the settings is the one that its value gives, where that is in its range. -/
theorem real_eq (h : ReadFrom d s) {k : Setting Binary64} (hk : k ∈ realSettings) :
    k.get s = (((k.value? d).bind realAt?).filter k.inRange).getD (k.get {}) := by
  obtain ⟨timeout, htimeout, hlimits⟩ := Outcome.bind_eq_ok.1 h.limits
  obtain ⟨minStrength, hminStrength, hcoupling⟩ := Outcome.bind_eq_ok.1 h.coupling
  obtain ⟨directoryWeight, hdirectoryWeight, hcoupling⟩ := Outcome.bind_eq_ok.1 hcoupling
  obtain ⟨namingWeight, hnamingWeight, hcoupling⟩ := Outcome.bind_eq_ok.1 hcoupling
  obtain ⟨indexWeight, hindexWeight, hcoupling⟩ := Outcome.bind_eq_ok.1 hcoupling
  obtain ⟨limits, coupling, analyzers, excluded, maxWorkers⟩ := s
  cases hlimits
  cases hcoupling
  simp only [realSettings, List.mem_cons, List.not_mem_nil, or_false] at hk
  -- Both sides name the same standard value; they must not be compared by computing it.
  rcases hk with rfl | rfl | rfl | rfl | rfl
  · simpa only [Setting.weight, Setting.value?] using eq_of_realWhere htimeout
  · simpa only [Setting.weight, Setting.value?] using eq_of_realWhere hminStrength
  · simpa only [Setting.weight, Setting.value?] using eq_of_realWhere hdirectoryWeight
  · simpa only [Setting.weight, Setting.value?] using eq_of_realWhere hnamingWeight
  · simpa only [Setting.weight, Setting.value?] using eq_of_realWhere hindexWeight

/-- The words among the settings are those that their value gives. -/
theorem words_eq (h : ReadFrom d s) {k : Setting (List String)} (hk : k ∈ wordSettings) :
    wordsOf d (k.value? d) = .ok (k.get s) := by
  simp only [wordSettings, List.mem_cons, List.not_mem_nil, or_false] at hk
  rcases hk with rfl | rfl
  · exact h.analyzers
  · exact h.excluded

/-- The settings that a document gives are within their ranges. -/
theorem inRange (h : ReadFrom d s) : s.InRange := by
  obtain ⟨hwhole, hreal⟩ := inRange_iff.1 standard_inRange
  refine inRange_iff.2 ⟨fun k hk => ?_, fun k hk => ?_⟩
  · rw [h.whole_eq hk]
    exact getD_filter (hwhole k hk) _
  · rw [h.real_eq hk]
    exact getD_filter (hreal k hk) _

end ReadFrom

/-- The document that a loader reads a text as, an empty one where the text gives none. -/
def documentOf (load : Loader) (text : String) : Document :=
  if (Text.trimmed text).isEmpty then .empty
  else
    match load text with
    | .ok d => d
    | .error _ => .empty

theorem readFrom_of_ofText {load : Loader} {name text : String} {s : Settings}
    (h : ofText load name text = .ok s) : ReadFrom (documentOf load text) s := by
  unfold ofText at h
  unfold documentOf
  split at h
  · rename_i hblank
    cases h
    rw [if_pos hblank]
    exact readFrom_null rfl
  · rename_i hblank
    rw [if_neg hblank]
    split at h
    · cases h
    · cases h
    · rename_i d hread
      rw [hread]
      exact readFrom_of_ofDocument h

/-- **Settings are within their ranges,** whatever text they come from. -/
theorem ofText_inRange {load : Loader} {name text : String} {s : Settings}
    (h : ofText load name text = .ok s) : s.InRange :=
  (readFrom_of_ofText h).inRange

/-! ## What a setting sees of a document -/

/-- A value without what stands below it. -/
def bare : Value → Value
  | .sequence _ => .sequence []
  | .ordered _ => .ordered []
  | .set _ => .set []
  | .mapping _ => .mapping []
  | v => v

/-- What a reading sees of a value: the value and the items of a sequence, each without
what stands below it. -/
def seen (d : Document) (v : Value) : Value × List Value :=
  (bare v, match v with
    | .sequence ids => ids.map fun id => bare (d.value id)
    | _ => [])

theorem wholeOf?_bare (v : Value) : wholeOf? (bare v) = wholeOf? v := by
  cases v <;> rfl

theorem realAt?_bare (v : Value) : realAt? (bare v) = realAt? v := by
  cases v <;> rfl

theorem wordOf?_bare (v : Value) : wordOf? (bare v) = wordOf? v := by
  cases v <;> rfl

/-- The words that what is seen of a value gives. -/
def wordsSeen : Option (Value × List Value) → Except Failure (List String)
  | some (.text s, _) => .ok [s]
  | some (.bytes bs, _) => .ok (bs.map fun b => toString b.toNat)
  | some (.sequence _, items) => (items.mapM wordOf?).map (·.filterMap id)
  | _ => .ok []

theorem wordsOf_eq_wordsSeen (d : Document) (v : Option Value) :
    wordsOf d v = wordsSeen (v.map (seen d)) := by
  rcases v with _ | v
  · rfl
  · cases v with
    | sequence ids =>
      have hitems : (ids.map fun id => bare (d.value id)).mapM wordOf? = ids.mapM fun id =>
          wordOf? (d.value id) := by
        rw [List.mapM_map]
        simp only [Function.comp_def, wordOf?_bare]
      rw [wordsOf, ← hitems]
      rfl
    | _ => rfl

theorem bind_eq_bind_seen {α : Type} {read : Value → Option α} (hread : ∀ v, read (bare v) = read v)
    (d : Document) (v : Option Value) : v.bind read = (v.map (seen d)).bind fun w => read w.1 := by
  simp only [Option.bind_map, Function.comp_def, seen, hread]

/-- Whether a setting sees the same under its key in two documents. -/
def SeesSame {α : Type} (k : Setting α) (d e : Document) : Prop :=
  (k.value? d).map (seen d) = (k.value? e).map (seen e)

namespace ReadFrom

variable {d e : Document} {s t : Settings}

theorem whole_eq_of_seesSame (hs : ReadFrom d s) (ht : ReadFrom e t) {k : Setting Int}
    (hk : k ∈ wholeSettings) (hsame : SeesSame k d e) : k.get s = k.get t := by
  rw [hs.whole_eq hk, ht.whole_eq hk, bind_eq_bind_seen wholeOf?_bare d, hsame,
    ← bind_eq_bind_seen wholeOf?_bare e]

theorem real_eq_of_seesSame (hs : ReadFrom d s) (ht : ReadFrom e t) {k : Setting Binary64}
    (hk : k ∈ realSettings) (hsame : SeesSame k d e) : k.get s = k.get t := by
  rw [hs.real_eq hk, ht.real_eq hk, bind_eq_bind_seen realAt?_bare d, hsame,
    ← bind_eq_bind_seen realAt?_bare e]

theorem words_eq_of_seesSame (hs : ReadFrom d s) (ht : ReadFrom e t) {k : Setting (List String)}
    (hk : k ∈ wordSettings) (hsame : SeesSame k d e) : k.get s = k.get t := by
  have hwords := hs.words_eq hk
  rw [wordsOf_eq_wordsSeen, hsame, ← wordsOf_eq_wordsSeen, ht.words_eq hk] at hwords
  exact (Except.ok.inj hwords).symm

end ReadFrom

/-- **Each setting is as the value under its own key tells,** whatever document the text is read as.
It is the number that the value gives where that is in its range, and else the standard one, which a
truth value never changes. All settings are in their ranges, and in the settings of two texts those
are the same that see the same under their key. -/
theorem ofText_exact {load : Loader} {name text : String} {s : Settings}
    (h : ofText load name text = .ok s) :
    s.InRange ∧ (∀ k ∈ realSettings, k.get s ≠ .nan) ∧
    (∀ k ∈ wholeSettings, k.IsRead GivesWhole (k.value? (documentOf load text)) s) ∧
    (∀ k ∈ realSettings, k.IsRead GivesReal (k.value? (documentOf load text)) s) ∧
    (∀ k ∈ wordSettings, wordsOf (documentOf load text) (k.value? (documentOf load text)) =
      .ok (k.get s)) ∧
    (∀ k ∈ wholeSettings, ∀ b, k.value? (documentOf load text) = some (.boolean b) →
      k.get s = k.get {}) ∧
    (∀ k ∈ realSettings, ∀ b, k.value? (documentOf load text) = some (.boolean b) →
      k.get s = k.get {}) ∧
    ∀ {load' : Loader} {name' text' : String} {s' : Settings}, ofText load' name' text' = .ok s' →
      (∀ k ∈ wholeSettings, SeesSame k (documentOf load text) (documentOf load' text') →
        k.get s = k.get s') ∧
      (∀ k ∈ realSettings, SeesSame k (documentOf load text) (documentOf load' text') →
        k.get s = k.get s') ∧
      ∀ k ∈ wordSettings, SeesSame k (documentOf load text) (documentOf load' text') →
        k.get s = k.get s' := by
  have hread := readFrom_of_ofText h
  have hwhole (k) (hk : k ∈ wholeSettings) :
      k.IsRead GivesWhole (k.value? (documentOf load text)) s :=
    Setting.isRead_of_eq givesWhole_iff (hread.whole_eq hk)
  have hreal (k) (hk : k ∈ realSettings) : k.IsRead GivesReal (k.value? (documentOf load text)) s :=
    Setting.isRead_of_eq givesReal_iff (hread.real_eq hk)
  refine ⟨hread.inRange, fun k hk => ?_, hwhole, hreal, fun k hk => hread.words_eq hk,
    fun k hk b hb => ?_, fun k hk b hb => ?_, fun {_ _ _ _} h' => ?_⟩
  · exact ne_nan_of_inRange hk ((inRange_iff.1 hread.inRange).2 k hk)
  · exact (hwhole k hk).eq_standard hb (not_givesWhole_boolean b)
  · exact (hreal k hk).eq_standard hb (not_givesReal_boolean b)
  · have hread' := readFrom_of_ofText h'
    exact ⟨fun k hk => hread.whole_eq_of_seesSame hread' hk,
      fun k hk => hread.real_eq_of_seesSame hread' hk, fun k hk =>
        hread.words_eq_of_seesSame hread' hk⟩

/-- Two texts that give the same number of workers and nothing else alike. In the first a truth
value and an undefined number leave the standard values, while a number may be spelled as a text. -/
theorem ofText_exact_of_workers :
    let text :=
      "limits:\n  max_commits: true\n  max_file_size: '4_096'\ncoupling:\n  min_strength: .nan\nmax_workers: 8\n"
    let other := "limits: 5\nmax_workers: 8\n"
    ∃ s t, ofText Yaml.load fileName text = .ok s ∧ ofText Yaml.load fileName other = .ok t ∧
      s.maxWorkers = t.maxWorkers ∧
      s.limits.maxCommits = ({} : Limits).maxCommits ∧ s.limits.maxFileSize = 4096 ∧
      s.coupling.minStrength = ({} : CouplingSettings).minStrength := by
  intro text other
  let size : Setting Int := .limit "max_file_size" (·.maxFileSize)
  let commits : Setting Int := .limit "max_commits" (·.maxCommits)
  let workers : Setting Int := ⟨none, "max_workers", (0 < ·), (·.maxWorkers)⟩
  let strength : Setting Binary64 := .weight "min_strength" (·.minStrength)
  have hsize : wholeSettings[0]? = some size := rfl
  have hcommits : wholeSettings[1]? = some commits := rfl
  have hworkers : wholeSettings[14]? = some workers := rfl
  have hstrength : realSettings[1]? = some strength := rfl
  have hread : (ofText Yaml.load fileName text).isOk ∧ (ofText Yaml.load fileName other).isOk ∧
      (workers.value? (documentOf Yaml.load text)).map (seen (documentOf Yaml.load text)) =
        (workers.value? (documentOf Yaml.load other)).map (seen (documentOf Yaml.load other)) ∧
      commits.value? (documentOf Yaml.load text) = some (.boolean true) ∧
      size.value? (documentOf Yaml.load text) = some (.text "4_096") ∧
      strength.value? (documentOf Yaml.load text) = some (.real .nan) := by
    decide +kernel
  obtain ⟨htext, hother, hsame, hboolean, hspelled, hnan⟩ := hread
  obtain ⟨s, hs⟩ := Outcome.exists_eq_ok htext
  obtain ⟨t, ht⟩ := Outcome.exists_eq_ok hother
  obtain ⟨-, -, hwhole, hreal, -, hkept, -, hindependent⟩ := ofText_exact hs
  refine ⟨s, t, hs, ht, ?_, ?_, ?_, ?_⟩
  · exact (hindependent ht).1 workers (List.mem_of_getElem? hworkers) hsame
  · exact hkept commits (List.mem_of_getElem? hcommits) true hboolean
  · exact (hwhole size (List.mem_of_getElem? hsize)).given (.text "4_096") 4096 hspelled
      (.text (by decide)) (by decide)
  · have hstandard := (hreal strength (List.mem_of_getElem? hstrength)).standard fun w x hw hx => by
      rw [hnan] at hw
      cases hw
      cases hx
      decide
    simpa only [strength, Setting.weight] using hstandard

end Settings
end CodeSurvey
