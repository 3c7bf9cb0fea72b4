/-
# What the preparation makes of a snapshot

A pair of carriage return and line feed becomes a line feed wherever it stands in a text: the text
is cut at the pairs into pieces that hold none, and the pieces are joined by line feeds
(`Text.replacesPairs_iff`). Nothing is added in this, so the text does not get larger
(`Preparation.utf8ByteSize_plainText_le`).

A file is measured before that. `Preparation.IsPrepared` says what becomes of one file, and what it
says holds of each file that no pattern matches and the file that is prepared of it
(`Preparation.isPrepared_prepareFile`). Over all files: there is one prepared file for each that is
kept, in order, and one warning tells of those whose text is too large. But a text that is to be
measured must have a UTF-8 form, and a limit that is to be told must be one that can be written:
else there are no prepared files at all (`Preparation.files_prepared`).
-/

import CodeSurvey.Proofs.Journal
import CodeSurvey.Proofs.Number.Overlong
import CodeSurvey.Proofs.Text
import CodeSurvey.Survey.Preparation
import Mathlib.Data.List.Forall2
import Mathlib.Data.String.Basic

namespace CodeSurvey
namespace Text

variable {p cs ds : List Char}

/-- Whether a text is another one with a line feed for each pair of carriage return and
line feed: both have the same pieces without such a pair, joined by pairs in the one and by
line feeds in the other. -/
def ReplacesPairs (cs ds : List Char) : Prop :=
  ∃ first rest, (∀ p ∈ first :: rest, ¬['\r', '\n'] <:+: p) ∧
    cs = first ++ rest.flatMap ('\r' :: '\n' :: ·) ∧ ds = first ++ rest.flatMap ('\n' :: ·)

/-- A piece without a pair stays, up to the pair that follows it. -/
theorem unifyLineEnds_append_pair (h : ¬['\r', '\n'] <:+: p) (cs : List Char) :
    unifyLineEnds (p ++ '\r' :: '\n' :: cs) = p ++ '\n' :: unifyLineEnds cs := by
  induction p with
  | nil => rfl
  | cons c p ih =>
    have hpair : ∀ r, c = '\r' → p ++ '\r' :: '\n' :: cs = '\n' :: r → False := by
      rintro r rfl hr
      cases p with
      | nil => exact absurd (List.cons.inj hr).1 (by decide)
      | cons d p =>
        obtain rfl := (List.cons.inj hr).1
        exact h ⟨[], p, rfl⟩
    rw [List.cons_append, unifyLineEnds.eq_3 c _ hpair, ih fun hp => h (List.infix_cons hp),
      List.cons_append]

/-- A text without a pair stays as it is. -/
theorem unifyLineEnds_eq_self (h : ¬['\r', '\n'] <:+: cs) : unifyLineEnds cs = cs := by
  fun_induction unifyLineEnds cs with
  | case1 => rfl
  | case2 r => exact absurd ⟨[], r, rfl⟩ h
  | case3 c r _ ih => rw [ih fun hr => h (List.infix_cons hr)]

/-- A text with plain line ends is the text with a line feed for each pair. -/
theorem replacesPairs_unifyLineEnds (cs : List Char) : ReplacesPairs cs (unifyLineEnds cs) := by
  fun_induction unifyLineEnds cs with
  | case1 => exact ⟨[], [], by simp, rfl, rfl⟩
  | case2 r ih =>
    obtain ⟨first, rest, hpieces, hr, hunified⟩ := ih
    refine ⟨[], first :: rest, ?_, ?_, ?_⟩
    · exact List.forall_mem_cons.2 ⟨by simp, hpieces⟩
    · rw [hr]
      rfl
    · rw [hunified]
      rfl
  | case3 c r hpair ih =>
    obtain ⟨first, rest, hpieces, hr, hunified⟩ := ih
    obtain ⟨hfirst, hrest⟩ := List.forall_mem_cons.1 hpieces
    refine ⟨c :: first, rest, List.forall_mem_cons.2 ⟨fun hinfix => ?_, hrest⟩, ?_, ?_⟩
    · rcases List.infix_cons_iff.1 hinfix with hfront | hinfix
      · -- The pair would stand at the front of the text itself.
        obtain ⟨hc, t, ht⟩ := List.cons_prefix_cons.1 hfront
        refine hpair (t ++ rest.flatMap ('\r' :: '\n' :: ·)) hc.symm ?_
        rw [hr, ← ht]
        rfl
      · exact hfirst hinfix
    · rw [hr, List.cons_append]
    · rw [hunified, List.cons_append]

/-- **Plain line ends**: there is no other text with a line feed for each pair. -/
theorem replacesPairs_iff : ReplacesPairs cs ds ↔ ds = unifyLineEnds cs := by
  refine ⟨?_, fun h => h ▸ replacesPairs_unifyLineEnds cs⟩
  rintro ⟨first, rest, hpieces, rfl, rfl⟩
  induction rest generalizing first with
  | nil =>
    rw [List.flatMap_nil, List.flatMap_nil, List.append_nil,
      unifyLineEnds_eq_self (hpieces first (List.mem_cons_self ..))]
  | cons p rest ih =>
    obtain ⟨hfirst, hrest⟩ := List.forall_mem_cons.1 hpieces
    rw [List.flatMap_cons, List.flatMap_cons, List.cons_append, List.cons_append,
      List.cons_append, ih p hrest, unifyLineEnds_append_pair hfirst]

end Text

namespace Preparation

/-- Plain line ends do not make a text larger. -/
theorem utf8ByteSize_plainText_le (s : String) : (plainText s).utf8ByteSize ≤ s.utf8ByteSize := by
  rw [plainText, String.utf8ByteSize_ofList, ← String.utf8Len_toList]
  exact String.utf8Len_le_of_sublist (Text.unifyLineEnds_sublist _)

/-- What becomes of a file under a limit for its text. -/
structure IsPrepared (limit : Int) (f g : SourceFile) : Prop where
  path : g.path = Path.tidied f.path
  language : g.language = f.language
  size_recorded : f.size ≠ 0 ∨ f.content = none → g.size = f.size
  size_measured : ∀ s, f.content = some s → f.size = 0 → g.size = s.utf8ByteSize
  content_none : f.content = none → g.content = none
  content_large : ∀ s, f.content = some s → limit < s.utf8ByteSize → g.content = none
  content_plain : ∀ s, f.content = some s → s.utf8ByteSize ≤ limit →
    ∃ t, g.content = some t ∧ Text.ReplacesPairs s.toList t.toList
  content_fits : ∀ t, g.content = some t → t.utf8ByteSize ≤ limit

theorem isOversized_eq_any (limit : Int) (f : SourceFile) :
    isOversized limit f = f.content.any fun s => limit < s.utf8ByteSize := by
  rw [isOversized]
  cases f.content <;> rfl

/-- **The preparation of one file** meets this. -/
theorem isPrepared_prepareFile (limit : Int) (f : SourceFile) :
    IsPrepared limit f (prepareFile limit f) := by
  obtain ⟨path, content, size, language, halves⟩ := f
  cases content with
  | none =>
    refine ⟨rfl, rfl, fun _ => ?_, nofun, fun _ => rfl, nofun, nofun, nofun⟩
    by_cases hsize : size = 0
    · subst hsize
      rfl
    · exact if_pos (bne_iff_ne.2 hsize)
  | some s =>
    refine ⟨rfl, rfl, fun h => ?_, ?_, nofun, ?_, ?_, ?_⟩
    · exact if_pos (bne_iff_ne.2 (h.resolve_right nofun))
    · rintro _ ⟨⟩ hsize
      exact if_neg fun hne => bne_iff_ne.1 hne hsize
    · rintro _ ⟨⟩ hlarge
      exact if_pos (decide_eq_true hlarge)
    · rintro _ ⟨⟩ hfits
      refine ⟨plainText s, if_neg (mt of_decide_eq_true (not_lt.2 hfits)), ?_⟩
      rw [plainText, String.toList_ofList]
      exact Text.replacesPairs_unifyLineEnds s.toList
    · intro t ht
      by_cases hlarge : limit < s.utf8ByteSize
      · cases (if_pos (decide_eq_true hlarge)).symm.trans ht
      · cases (if_neg (mt of_decide_eq_true hlarge)).symm.trans ht
        exact (Int.ofNat_le.2 (utf8ByteSize_plainText_le s)).trans (not_lt.1 hlarge)

/-- The texts of some files can be measured if each of them can, and else the first
that cannot says why. -/
theorem forM_checkEncodable (fs : List SourceFile) :
    fs.forM SourceFile.checkEncodable =
      match fs.findSome? SourceFile.encodeError? with
      | some e => .error (.notEncodable e)
      | none => .ok () := by
  induction fs with
  | nil => rfl
  | cons f fs ih =>
    show (f.checkEncodable >>= fun _ => fs.forM SourceFile.checkEncodable) = _
    rw [List.findSome?_cons, SourceFile.checkEncodable]
    cases f.encodeError? with
    | some e => rfl
    | none => exact ih

/-- What is warned of files whose text is too large. -/
def oversizedWarning (limit : Int) (large : List SourceFile) : Warning where
  step := "files"
  message := toString large.length ++ " files exceed the " ++ toString limit ++
    " byte size limit; their content was skipped"
  detail := some (", ".intercalate ((large.take 10).map fun f => Path.tidied f.path))

/-- The limit is written for the warning, if there is one. -/
theorem outcome_warnOversized (limit : Int) (large : List SourceFile) :
    (warnOversized limit (large.map fun f => Path.tidied f.path)).outcome =
      if large = [] then pure (.ok ())
      else if Numeral.isEndless limit then pure (.error .endlessInteger)
      else ⟨.ok (), [.warning (oversizedWarning limit large)]⟩ := by
  unfold warnOversized Numeral.written
  rw [List.isEmpty_map, List.length_map, ← List.map_take]
  cases large with
  | nil => rfl
  | cons f large => cases Numeral.isEndless limit <;> rfl

/-- What the preparation of some files comes to, and what it records. -/
theorem outcome_files {limit : Int} {globs : List String} {fs kept large : List SourceFile}
    (hkept : included globs fs = kept) (hlarge : kept.filter (isOversized limit) = large) :
    (files limit globs fs).outcome =
      match kept.findSome? SourceFile.encodeError? with
      | some e => pure (.error (.notEncodable e))
      | none =>
        if large = [] then pure (.ok (kept.map (prepareFile limit)))
        else if Numeral.isEndless limit then pure (.error .endlessInteger)
        else ⟨.ok (kept.map (prepareFile limit)), [.warning (oversizedWarning limit large)]⟩ := by
  rw [files, Attempt.outcome_bind, forM_checkEncodable, hkept, hlarge]
  cases kept.findSome? SourceFile.encodeError? with
  | some e => rfl
  | none =>
    show (warnOversized limit _ >>= fun _ =>
        pure (kept.map (prepareFile limit)) : Attempt _).outcome = _
    rw [Attempt.outcome_bind, outcome_warnOversized]
    split_ifs <;> rfl

/-- Whatever is prepared is prepared of the files that are kept. -/
theorem eq_of_files_eq_ok {limit : Int} {globs : List String} {fs prepared : List SourceFile}
    (h : (files limit globs fs).outcome.value = .ok prepared) :
    prepared = (included globs fs).map (prepareFile limit) := by
  rw [outcome_files rfl rfl] at h
  split at h
  · cases h
  · split_ifs at h <;> cases h <;> rfl

/-- Files can be prepared exactly if each text that is kept has a UTF-8 form and, where one is too
large, the limit can be written. -/
theorem exists_files_eq_ok_iff {limit : Int} {globs : List String} {fs : List SourceFile} :
    (∃ prepared, (files limit globs fs).outcome.value = .ok prepared) ↔
      (∀ f ∈ included globs fs, f.content = none ∨ f.halves = []) ∧
        ((∀ f ∈ included globs fs, isOversized limit f = false) ∨
          limit.natAbs < 10 ^ Numeral.maxDigits) := by
  have hencodable : (∀ f ∈ included globs fs, f.content = none ∨ f.halves = []) ↔
      (included globs fs).findSome? SourceFile.encodeError? = none := by
    simp only [List.findSome?_eq_none_iff, SourceFile.encodeError?_eq_none_iff]
  have hlarge : (∀ f ∈ included globs fs, isOversized limit f = false) ↔
      (included globs fs).filter (isOversized limit) = [] := by
    simp only [List.filter_eq_nil_iff, Bool.not_eq_true]
  rw [hencodable, hlarge, ← not_le, ← Numeral.isEndless_iff, outcome_files rfl rfl]
  cases (included globs fs).findSome? SourceFile.encodeError? with
  | some e => simp
  | none =>
    dsimp only
    by_cases hnone : (included globs fs).filter (isOversized limit) = []
    · simp [hnone]
    · cases hendless : Numeral.isEndless limit <;> simp [hnone]

/-- Files without text can be prepared. -/
theorem value_files_of_no_content (limit : Int) (globs : List String) {fs : List SourceFile}
    (h : ∀ f ∈ fs, f.content = none) :
    (files limit globs fs).outcome.value = .ok ((included globs fs).map (prepareFile limit)) := by
  have hkept : ∀ f ∈ included globs fs, f.content = none := fun f hf => h f (List.mem_filter.1 hf).1
  have hencodable : (included globs fs).findSome? SourceFile.encodeError? = none :=
    List.findSome?_eq_none_iff.2 fun f hf =>
      SourceFile.encodeError?_eq_none_iff.2 (.inl (hkept f hf))
  have hlarge : (included globs fs).filter (isOversized limit) = [] :=
    List.filter_eq_nil_iff.2 fun f hf => by rw [isOversized, hkept f hf]; exact Bool.false_ne_true
  rw [outcome_files rfl hlarge, hencodable]
  rfl

/-- **The preparation of files.** The files whose tidy paths no pattern matches are kept, in
order, and each of them is prepared as one file. If the text of some of them is larger than the
limit, there is one entry in the journal, a warning with their number and the first ten of their
paths; else there is none.

Nothing is prepared if half of a surrogate pair stands alone in a text that is kept, or if there is
a text to warn of and the limit has too many digits. -/
theorem files_prepared (limit : Int) (globs : List String) (fs : List SourceFile) :
    let kept := fs.filter fun f => globs.all fun g => !Glob.isMatch g (Path.tidied f.path)
    let large := kept.filter fun f => f.content.any fun s => limit < s.utf8ByteSize
    let outcome := (files limit globs fs).outcome
    ((∀ f ∈ kept, f.content = none ∨ f.halves = []) →
      (large = [] ∨ limit.natAbs < 10 ^ Numeral.maxDigits) →
      ∃ prepared, outcome.value = .ok prepared ∧ List.Forall₂ (IsPrepared limit) kept prepared ∧
        outcome.entries =
          if large = [] then []
          else
            [.warning
              { step := "files"
                message := toString large.length ++ " files exceed the " ++ toString limit ++
                  " byte size limit; their content was skipped"
                detail := some (", ".intercalate ((large.take 10).map fun f =>
                  Path.tidied f.path)) }]) ∧
      (∀ e, kept.findSome? SourceFile.encodeError? = some e →
        outcome.value = .error (.notEncodable e) ∧ outcome.entries = []) ∧
      ((∀ f ∈ kept, f.content = none ∨ f.halves = []) → large ≠ [] →
        10 ^ Numeral.maxDigits ≤ limit.natAbs →
        outcome.value = .error .endlessInteger ∧ outcome.entries = []) := by
  intro kept large outcome
  have hkept : included globs fs = kept :=
    List.filter_congr fun f _ => by rw [isExcluded, List.not_any_eq_all_not]
  have hlarge : kept.filter (isOversized limit) = large :=
    List.filter_congr fun f _ => isOversized_eq_any limit f
  have houtcome : outcome = _ := outcome_files hkept hlarge
  have hmeasured : (∀ f ∈ kept, f.content = none ∨ f.halves = []) →
      kept.findSome? SourceFile.encodeError? = none :=
    fun h => List.findSome?_eq_none_iff.2 fun f hf => SourceFile.encodeError?_eq_none_iff.2 (h f hf)
  have hprepared : List.Forall₂ (IsPrepared limit) kept (kept.map (prepareFile limit)) := by
    rw [List.forall₂_map_right_iff]
    exact List.forall₂_same.2 fun f _ => isPrepared_prepareFile limit f
  have hgives (hencodable : ∀ f ∈ kept, f.content = none ∨ f.halves = [])
      (hwritable : large = [] ∨ limit.natAbs < 10 ^ Numeral.maxDigits) :
      outcome = ⟨.ok (kept.map (prepareFile limit)), if large = [] then []
        else [.warning (oversizedWarning limit large)]⟩ := by
    rw [houtcome, hmeasured hencodable]
    dsimp only
    by_cases hnone : large = []
    · rw [if_pos hnone, if_pos hnone]
      rfl
    · rw [if_neg hnone, if_neg hnone, if_neg]
      rw [Numeral.isEndless_iff, not_le]
      exact hwritable.resolve_left hnone
  refine ⟨fun hencodable hwritable => ⟨_, ?_, hprepared, ?_⟩, fun e he => ?_,
    fun hencodable hne hendless => ?_⟩
  · rw [hgives hencodable hwritable]
  · rw [hgives hencodable hwritable]
    rfl
  · rw [houtcome, he]
    exact ⟨rfl, rfl⟩
  · rw [houtcome, hmeasured hencodable]
    dsimp only
    rw [if_neg hne, if_pos (Numeral.isEndless_iff.2 hendless)]
    exact ⟨rfl, rfl⟩

/-- Half of a surrogate pair in a text keeps all files from being prepared. -/
theorem unprepared_for_half_of_pair :
    let half : SourceFile :=
      { path := "notes.txt", content := some (String.singleton (Utf8.standIn 0xD800)), size := 1,
        halves := [0] }
    (files 1000000 [] [half]).outcome = ⟨.error (.notEncodable ⟨0xD800, 0, 1⟩), []⟩ ∧
      ¬ ∃ prepared, (files 1000000 [] [half]).outcome.value = .ok prepared := by
  intro half
  have hincluded : included [] [half] = [half] := rfl
  have hfails : (files 1000000 [] [half]).outcome = ⟨.error (.notEncodable ⟨0xD800, 0, 1⟩), []⟩ :=
    outcome_files hincluded rfl
  refine ⟨hfails, ?_⟩
  rintro ⟨prepared, h⟩
  rw [hfails] at h
  cases h

end Preparation
end CodeSurvey
