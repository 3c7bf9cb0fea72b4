/-
# What a scan gives

The specifiers that a scan gives are those of the references that its finders found, trimmed,
without blank ones, each once in order of first mention (`distinctTrimmed_eq`). The first finder
that supports the path and answers decides, and a text without characters is not scanned
(`scanWith_eq_ok_iff`). A scan fails only where a finder fails (`scanWith_answers`).
-/

import CodeSurvey.Import.Scan
import CodeSurvey.Proofs.Keyed

namespace CodeSurvey

/-- Trimming and dropping repetitions leaves the distinct trimmed texts that
are not blank, in order. -/
theorem distinctTrimmed_eq (specifiers : List String) :
    distinctTrimmed specifiers = ((specifiers.map Text.trimmed).filter fun s =>
      !s.isEmpty).eraseDups := by
  -- The induction is on the last specifier; the texts seen so far are kept with the latest first.
  rw [distinctTrimmed, ← List.reverse_inj, List.reverse_reverse]
  induction specifiers using List.reverseRecOn with
  | nil => rfl
  | append_singleton ss s ih =>
    rw [List.foldl_concat, ih, List.map_append, List.map_singleton, List.filter_append]
    by_cases hblank : (Text.trimmed s).isEmpty
    · simp [hblank]
    · rw [List.filter_cons_of_pos (by simpa using hblank), List.filter_nil, eraseDups_concat]
      by_cases hseen : Text.trimmed s ∈ (ss.map Text.trimmed).filter fun s => !s.isEmpty
      · rw [if_pos hseen, if_pos]
        simpa [hblank] using hseen
      · rw [if_neg hseen, if_neg, List.reverse_append]
        · rfl
        · simpa [hblank] using hseen

namespace ImportFinder

/-- Whether a finder leaves a text to the next one: it is not for the path, or it has no answer. -/
def Leaves (x : ImportFinder) (path text : String) : Prop :=
  x.supports path = false ∨ (x.supports path = true ∧ x.find path text = .ok none)

/-- Whether references are what the first finder gives that does not leave a text to the next one,
or none if all of them leave it. -/
inductive Decides (path text : String) : List ImportFinder → List ImportReference → Prop
  | nobody : Decides path text [] []
  | found {x : ImportFinder} {rest : List ImportFinder} {references : List ImportReference}
      (hsupports : x.supports path = true) (hfind : x.find path text = .ok (some references)) :
      Decides path text (x :: rest) references
  | later {x : ImportFinder} {rest : List ImportFinder} {references : List ImportReference}
      (hleaves : x.Leaves path text) (hrest : Decides path text rest references) :
        Decides path text (x :: rest) references

theorem firstAnswer_eq_ok_iff {path text : String} {finders : List ImportFinder}
    {references : List ImportReference} :
    firstAnswer path text finders = .ok references ↔ Decides path text finders references := by
  induction finders with
  | nil =>
    constructor
    · rintro ⟨⟩
      exact .nobody
    · rintro ⟨⟩
      rfl
  | cons x rest ih =>
    rw [firstAnswer]
    cases hsupports : x.supports path with
    | false =>
      show firstAnswer path text rest = .ok references ↔ _
      rw [ih]
      constructor
      · exact .later (.inl hsupports)
      · rintro (_ | ⟨h, -⟩ | ⟨-, h⟩)
        · rw [hsupports] at h
          cases h
        · exact h
    | true =>
      show (x.find path text >>= fun answer => _) = Except.ok references ↔ _
      cases hfind : x.find path text with
      | error e =>
        constructor
        · rintro ⟨⟩
        · rintro (_ | ⟨-, h⟩ | ⟨h | ⟨-, h⟩, -⟩)
          · exact nomatch hfind.symm.trans h
          · exact nomatch hsupports.symm.trans h
          · exact nomatch hfind.symm.trans h
      | ok answer =>
        cases answer with
        | none =>
          show firstAnswer path text rest = .ok references ↔ _
          rw [ih]
          constructor
          · exact .later (.inr ⟨hsupports, hfind⟩)
          · rintro (_ | ⟨-, h⟩ | ⟨-, h⟩)
            · exact nomatch hfind.symm.trans h
            · exact h
        | some found =>
          show Except.ok found = Except.ok references ↔ _
          constructor
          · rintro ⟨⟩
            exact .found hsupports hfind
          · rintro (_ | ⟨-, h⟩ | ⟨h | ⟨-, h⟩, -⟩)
            · exact congrArg _ (Option.some.inj (Except.ok.inj (hfind.symm.trans h)))
            · exact nomatch hsupports.symm.trans h
            · exact nomatch hfind.symm.trans h

end ImportFinder

/-- Whether specifiers are those of a text by some finders: of a text that is not empty, the
trimmed specifiers of the references that the finders come to, without blank ones, each once in
order of first mention. -/
def IsScanOf (ss : List String) (finders : List ImportFinder) (path text : String) : Prop :=
  if text.isEmpty then ss = []
  else ∃ references, ImportFinder.Decides path text finders references ∧
    ss = ((references.map fun r => Text.trimmed r.specifier).filter fun s => !s.isEmpty).eraseDups

/-- **What a scan gives** are the specifiers of the text. -/
theorem scanWith_eq_ok_iff {finders : List ImportFinder} {path : String} {content : Option String}
    {ss : List String} :
    scanWith finders path content = .ok ss ↔ IsScanOf ss finders path (content.getD "") := by
  unfold scanWith IsScanOf
  dsimp only
  split_ifs
  · exact ⟨fun h => (Except.ok.inj h).symm, fun h => h ▸ rfl⟩
  · simp only [← ImportFinder.firstAnswer_eq_ok_iff]
    cases ImportFinder.firstAnswer path (content.getD "") finders with
    | error e => exact ⟨nofun, fun ⟨_, h, _⟩ => nomatch h⟩
    | ok references =>
      show Except.ok (distinctTrimmed (references.map (·.specifier))) = Except.ok ss ↔ _
      rw [distinctTrimmed_eq, List.map_map]
      constructor
      · rintro ⟨⟩
        exact ⟨references, rfl, rfl⟩
      · rintro ⟨_, ⟨⟩, rfl⟩
        rfl

/-- A finder that never fails on the paths that it supports. -/
def ImportFinder.Answers (x : ImportFinder) : Prop :=
  ∀ path text, x.supports path → ∃ answer, x.find path text = .ok answer

theorem ImportFinder.firstAnswer_eq_ok {finders : List ImportFinder} (h : ∀ x ∈ finders, x.Answers)
    (path text : String) : ∃ references, firstAnswer path text finders = .ok references := by
  induction finders with
  | nil => exact ⟨[], rfl⟩
  | cons x rest ih =>
    obtain ⟨references, hrest⟩ := ih fun y hy => h y (List.mem_cons_of_mem _ hy)
    by_cases hs : x.supports path
    · obtain ⟨answer, hx⟩ := h x (List.mem_cons_self ..) path text hs
      cases answer with
      | some found => exact ⟨found,
          by simp [firstAnswer, hs, hx, bind, Except.bind, pure, Except.pure]⟩
      | none => exact ⟨references, by simp [firstAnswer, hs, hx, bind, Except.bind, hrest]⟩
    · exact ⟨references, by simp [firstAnswer, hs, bind, Except.bind, pure, Except.pure, hrest]⟩

/-- A scan fails only where one of its finders fails. -/
theorem scanWith_answers {finders : List ImportFinder} (h : ∀ x ∈ finders, x.Answers)
    (path : String) (content : Option String) : ∃ ss, scanWith finders path content = .ok ss := by
  obtain ⟨references, hr⟩ := ImportFinder.firstAnswer_eq_ok h path (content.getD "")
  by_cases hempty : (content.getD "").isEmpty
  · exact ⟨[], by simp [scanWith, hempty, pure, Except.pure]⟩
  · exact ⟨distinctTrimmed (references.map (·.specifier)), by
      simp [scanWith, hempty, hr, bind, Except.bind, pure, Except.pure]⟩

/-- No specifier that a scan gives stands there twice. -/
theorem nodup_of_scanWith {finders : List ImportFinder} {path : String} {content : Option String}
    {ss : List String} (h : scanWith finders path content = .ok ss) : ss.Nodup := by
  rw [scanWith_eq_ok_iff, IsScanOf] at h
  split_ifs at h
  · rw [h]
    exact List.nodup_nil
  · obtain ⟨references, -, rfl⟩ := h
    exact nodup_eraseDups _

end CodeSurvey
