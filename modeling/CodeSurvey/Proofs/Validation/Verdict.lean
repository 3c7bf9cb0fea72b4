/-
# The verdict on a snapshot

The checks before a run accept a snapshot whose paths are in order, and whose full name and
address are missing or of the accepted forms (`Repository.IsSurveyable`). Any other snapshot
has a first fault: no files, else an empty path, else repeated paths, else the full name,
else the address (`Repository.FirstFault`). Each of these is what the checks find
(`Repository.FirstFault.fault?_eq`), and there is no third possibility
(`Repository.isSurveyable_or_firstFault`), so the verdict is known in full
(`Repository.validate_verdict`). The failure tells of the fault, unless it is to show a
value that cannot be written.

An accepted full name is owner and name to the last character but for one line feed that may
follow (`Repository.validate_ignores_line_feed`). The blanks around an address do not count, so
it has no such exception.

Two files with one tidy path are not accepted (`Repository.validate_of_same_path`), and so two
spellings of a canonical path are not. It is otherwise where a tidy path is not canonical
(`Path.tidied_of_mark_behind_slash`).
-/

import CodeSurvey.Proofs.Path.Tidy
import CodeSurvey.Proofs.Sorting
import CodeSurvey.Proofs.Validation

namespace CodeSurvey
namespace Validation

/-- Whether a text is an owner and a name with a slash between them. -/
def IsFullName (w : List Char) : Prop :=
  ∃ owner name, IsName owner ∧ IsName name ∧ w = owner ++ '/' :: name

/-- Whether a text is the address of a repository. -/
def IsWebAddress (w : List Char) : Prop :=
  ∃ host owner name, IsHost host ∧ IsName owner ∧ IsName name ∧ IsAddress w host owner name

/-- Whether a value of the metadata is missing, or a text with a property. -/
def IsMissingOr (P : List Char → Prop) (v : Json) : Prop :=
  v = .null ∨ ∃ s, v = .text s ∧ P s.toList

/-- A check of texts, made of a value that may be missing, asks for what it asks of a text. -/
theorem isAbsentOr_iff {p : String → Bool} {P : List Char → Prop} (h : ∀ s, p s = true ↔ P s.toList)
    (v : Json) : isAbsentOr p v = true ↔ IsMissingOr P v := by
  cases v with
  | null => exact ⟨fun _ => .inl rfl, fun _ => rfl⟩
  | text s =>
    refine (h s).trans ⟨fun hP => .inr ⟨s, rfl, hP⟩, ?_⟩
    rintro (hnull | ⟨_, hs, hP⟩)
    · cases hnull
    · cases hs
      exact hP
  | bool | int | real | array | object => exact ⟨nofun, by rintro (h | ⟨_, h, -⟩) <;> cases h⟩

/-- What is accepted as a full name is one, to the last character or to a line feed at its end. -/
theorem isFullName_iff_ends {s : String} :
    isFullName s = true ↔ IsFullName s.toList ∨ ∃ w, IsFullName w ∧ s.toList = w ++ ['\n'] := by
  rw [isFullName_iff]
  constructor
  · rintro ⟨owner, name, howner, hname, h | h⟩
    · exact .inl ⟨owner, name, howner, hname, h⟩
    · exact .inr ⟨_, ⟨owner, name, howner, hname, rfl⟩, h⟩
  · rintro (⟨owner, name, howner, hname, h⟩ | ⟨_, ⟨owner, name, howner, hname, rfl⟩, h⟩)
    · exact ⟨owner, name, howner, hname, .inl h⟩
    · exact ⟨owner, name, howner, hname, .inr h⟩

/-- The characters of a full name are those of names, and slashes. -/
theorem IsFullName.isNameChar_or_slash {w : List Char} (h : IsFullName w) :
    ∀ c ∈ w, isNameChar c = true ∨ c = '/' := by
  obtain ⟨owner, name, howner, hname, rfl⟩ := h
  intro c hc
  rcases List.mem_append.1 hc with hc | hc
  · exact .inl (howner.2 c hc)
  · rcases List.mem_cons.1 hc with rfl | hc
    · exact .inr rfl
    · exact .inl (hname.2 c hc)

/-- The repeated paths are in order, each once. -/
theorem pairwise_repeated (paths : List String) : (repeated paths).Pairwise (· < ·) :=
  Text.pairwise_sortedDistinct _

theorem mem_repeated {paths : List String} {p : String} :
    p ∈ repeated paths ↔ 1 < paths.count p := by
  rw [repeated, Text.mem_sortedDistinct, List.mem_filter, decide_eq_true_eq]
  exact and_iff_right_of_imp fun h => List.count_pos_iff.1 (Nat.zero_lt_of_lt h)

end Validation

namespace Repository

open Validation

variable {r : Repository} {cause : Invalid}

/-- The tidy paths of the files. -/
def tidyPaths (r : Repository) : List String := r.files.map fun f => Path.tidied f.path

/-- The full name of a repository is missing, or it is an owner and a name, which a
line feed may follow. -/
def HasFullName (r : Repository) : Prop :=
  IsMissingOr (fun w => IsFullName w ∨ ∃ v, IsFullName v ∧ w = v ++ ['\n']) (r.meta "full_name")

/-- The address of a repository is missing, or blanks around the address of a repository. -/
def HasUrl (r : Repository) : Prop :=
  IsMissingOr (fun w => IsWebAddress (Text.trim w)) (r.meta "url")

/-- Whether a repository can be surveyed. -/
structure IsSurveyable (r : Repository) : Prop where
  paths : r.PathsInOrder
  fullName : r.HasFullName
  url : r.HasUrl

/-- The first fault of a repository. Where paths are repeated, it tells the first
five of them in order. -/
inductive FirstFault (r : Repository) : Invalid → Prop
  | noFiles (h : r.files = []) : FirstFault r .noFiles
  | emptyPath (h : "" ∈ r.tidyPaths) : FirstFault r .emptyPath
  | duplicatePaths {paths : List String} (hempty : "" ∉ r.tidyPaths) (hsome : paths ≠ [])
      (hsorted : paths.Pairwise (· < ·)) (hmem : ∀ p, p ∈ paths ↔ 1 < r.tidyPaths.count p) :
      FirstFault r (.duplicatePaths (paths.take 5))
  | fullName (hpaths : r.PathsInOrder) (h : ¬r.HasFullName) :
      FirstFault r (.fullName (r.meta "full_name"))
  | url (hpaths : r.PathsInOrder) (hname : r.HasFullName) (h : ¬r.HasUrl) :
      FirstFault r (.url (r.meta "url"))

theorem isAbsentOr_isFullName_iff :
    isAbsentOr isFullName (r.meta "full_name") = true ↔ r.HasFullName :=
  isAbsentOr_iff (fun _ => isFullName_iff_ends) _

theorem isAbsentOr_isUrl_iff : isAbsentOr isUrl (r.meta "url") = true ↔ r.HasUrl :=
  isAbsentOr_iff (fun _ => isUrl_iff) _

/-- The checks find no fault in a repository that can be surveyed. -/
theorem IsSurveyable.fault?_eq (h : r.IsSurveyable) : fault? r = none := by
  rw [fault?_of_pathsInOrder h.paths, isAbsentOr_isFullName_iff.2 h.fullName,
    isAbsentOr_isUrl_iff.2 h.url]
  rfl

/-- **The checks find the first fault.** -/
theorem FirstFault.fault?_eq (h : FirstFault r cause) : fault? r = some cause := by
  cases h with
  | noFiles h =>
    rw [fault?, h]
    rfl
  | emptyPath h =>
    have hsome : r.tidyPaths.isEmpty = false := List.isEmpty_eq_false_iff.2 (List.ne_nil_of_mem h)
    have hempty : r.tidyPaths.any (·.isEmpty) = true := List.any_eq_true.2 ⟨"", h, rfl⟩
    rw [tidyPaths] at hsome hempty
    simp only [fault?, hsome, hempty, Bool.false_eq_true, if_false, if_true]
  | @duplicatePaths paths hempty hsome hsorted hmem =>
    obtain rfl : paths = repeated r.tidyPaths :=
      eq_of_pairwise_of_mem_iff (fun _ _ => String.lt_asymm) hsorted (pairwise_repeated _) fun p =>
        (hmem p).trans mem_repeated.symm
    obtain ⟨p, hp⟩ := List.exists_mem_of_ne_nil _ hsome
    have hpath : p ∈ r.tidyPaths := List.count_pos_iff.1 (Nat.zero_lt_of_lt (mem_repeated.1 hp))
    have hfiles : r.tidyPaths.isEmpty = false :=
      List.isEmpty_eq_false_iff.2 (List.ne_nil_of_mem hpath)
    have hnonempty : r.tidyPaths.any (·.isEmpty) = false := by
      refine List.any_eq_false.2 fun q hq hnil => hempty ?_
      rwa [String.isEmpty_iff.1 hnil] at hq
    have hrepeated : (!(repeated r.tidyPaths).isEmpty) = true := by
      rw [List.isEmpty_eq_false_iff.2 hsome]
      rfl
    rw [tidyPaths] at hfiles hnonempty hrepeated
    simp only [fault?, hfiles, hnonempty, hrepeated, Bool.false_eq_true, if_false, if_true]
    rfl
  | fullName hpaths h =>
    rw [fault?_of_pathsInOrder hpaths, Bool.eq_false_iff.2 (mt isAbsentOr_isFullName_iff.1 h)]
    rfl
  | url hpaths hname h =>
    rw [fault?_of_pathsInOrder hpaths, isAbsentOr_isFullName_iff.2 hname,
      Bool.eq_false_iff.2 (mt isAbsentOr_isUrl_iff.1 h)]
    rfl

/-- A repository can be surveyed, or it has a first fault. -/
theorem isSurveyable_or_firstFault (r : Repository) :
    r.IsSurveyable ∨ ∃ cause, FirstFault r cause := by
  by_cases hfiles : r.files = []
  · exact .inr ⟨_, .noFiles hfiles⟩
  by_cases hempty : "" ∈ r.tidyPaths
  · exact .inr ⟨_, .emptyPath hempty⟩
  by_cases hnodup : r.tidyPaths.Nodup
  · have hpaths : r.PathsInOrder :=
      ⟨hfiles, fun f hf hnil => hempty (hnil ▸ List.mem_map_of_mem hf), hnodup⟩
    by_cases hname : r.HasFullName
    · by_cases hurl : r.HasUrl
      · exact .inl ⟨hpaths, hname, hurl⟩
      · exact .inr ⟨_, .url hpaths hname hurl⟩
    · exact .inr ⟨_, .fullName hpaths hname⟩
  · exact .inr ⟨_, .duplicatePaths hempty (mt repeated_eq_nil_iff.1 hnodup)
      (pairwise_repeated _) fun _ => mem_repeated⟩

variable {room : Nat}

theorem validate_eq_ok_iff : r.validate room = .ok () ↔ r.IsSurveyable := by
  refine ⟨fun h => (isSurveyable_or_firstFault r).resolve_right ?_,
    fun h => by rw [validate, h.fault?_eq]⟩
  rintro ⟨cause, hcause⟩
  rw [validate, hcause.fault?_eq] at h
  cases h

theorem validate_eq_error_iff {e : Failure} :
    r.validate room = .error e ↔ ∃ cause, FirstFault r cause ∧ e = cause.failure room := by
  constructor
  · intro h
    rcases isSurveyable_or_firstFault r with hr | ⟨cause, hcause⟩
    · rw [validate_eq_ok_iff.2 hr] at h
      cases h
    · rw [validate, hcause.fault?_eq] at h
      cases h
      exact ⟨cause, hcause, rfl⟩
  · rintro ⟨cause, hcause, rfl⟩
    rw [validate, hcause.fault?_eq]

/-- **The verdict on a snapshot.** A repository is accepted exactly if there are files, their tidy
paths are distinct and not empty, its full name is missing or an owner and a name, to the last
character or to a line feed at its end, and its address is missing or, without the blanks around it,
the address of a repository. Any other repository is refused, and the failure tells of its first
fault; but where a full name or an address is to be shown that cannot be written, as it holds too
long an integer or values too deep inside one another, the failure is that of writing it. -/
theorem validate_verdict (r : Repository) (room : Nat) :
    (r.validate room = .ok () ↔
      r.PathsInOrder ∧
      IsMissingOr (fun w => IsFullName w ∨ ∃ v, IsFullName v ∧ w = v ++ ['\n'])
        (r.meta "full_name") ∧
      IsMissingOr (fun w => IsWebAddress (Text.trim w)) (r.meta "url")) ∧
    ∀ e, r.validate room = .error e ↔ ∃ cause, FirstFault r cause ∧
      (cause.unwritable? room = none ∧ e = .invalidRepository cause ∨
        ∃ fault, cause.unwritable? room = some fault ∧ e = .ofUnwritable fault) := by
  refine ⟨validate_eq_ok_iff.trans ⟨fun h => ⟨h.paths, h.fullName, h.url⟩, ?_⟩, fun e => ?_⟩
  · rintro ⟨hpaths, hname, hurl⟩
    exact ⟨hpaths, hname, hurl⟩
  · simp only [validate_eq_error_iff, Invalid.failure_eq_iff]

/-- A repository is accepted although its full name ends with a line feed, and so is none. -/
theorem validate_ignores_line_feed :
    let r : Repository :=
      { files := [{ path := "src/app.py" }], metadata := [("full_name", .text "acme/widgets\n")] }
    r.validate = .ok () ∧ ¬IsMissingOr IsFullName (r.meta "full_name") := by
  intro r
  have hmeta : r.meta "full_name" = .text "acme/widgets\n" := rfl
  refine ⟨validate_eq_ok_iff.2 ⟨⟨List.cons_ne_nil _ _, ?_, List.nodup_singleton _⟩, ?_,
    .inl rfl⟩, ?_⟩
  · intro f hf
    obtain rfl := List.mem_singleton.1 hf
    decide
  · have howner : IsName "acme".toList := ⟨by decide, List.all_eq_true.1 (by decide)⟩
    have hname : IsName "widgets".toList := ⟨by decide, List.all_eq_true.1 (by decide)⟩
    exact .inr ⟨_, hmeta, .inr ⟨_, ⟨_, _, howner, hname, rfl⟩, rfl⟩⟩
  · rw [hmeta]
    rintro (hnull | ⟨_, hs, hword⟩)
    · cases hnull
    · cases hs
      rcases hword.isNameChar_or_slash '\n' (by decide) with h | h <;> exact absurd h (by decide)

/-- Two files whose tidy paths are the same are not accepted. -/
theorem validate_of_same_path {f g : SourceFile} (hfiles : [f, g].Sublist r.files)
    (h : Path.tidied f.path = Path.tidied g.path) :
    ∃ cause, r.validate room = .error (.invalidRepository cause) ∧
      (cause = .emptyPath ∨ ∃ paths, cause = .duplicatePaths paths) := by
  have hnodup : ¬r.tidyPaths.Nodup := by
    intro hnodup
    have hpair : ([f, g].map fun f => Path.tidied f.path).Nodup := hnodup.sublist (hfiles.map _)
    exact (List.nodup_cons.1 hpair).1 (List.mem_singleton.2 h)
  rcases isSurveyable_or_firstFault r with hr | ⟨cause, hcause⟩
  · exact absurd hr.paths.nodup hnodup
  · have hfails : r.validate room = .error (cause.failure room) :=
      validate_eq_error_iff.2 ⟨cause, hcause, rfl⟩
    cases hcause with
    | noFiles hnil =>
      rw [hnil] at hfiles
      cases hfiles
    | emptyPath => exact ⟨_, hfails, .inl rfl⟩
    | duplicatePaths => exact ⟨_, hfails, .inr ⟨_, rfl⟩⟩
    | fullName hpaths | url hpaths => exact absurd hpaths.nodup hnodup

end Repository

namespace Path

open Text

/-- **Tidy paths and their spellings.** A tidy path holds no backslash, does not start with a slash
and does not end with a blank. Tidying it again leaves it as it is exactly if it is canonical, and
it is not canonical exactly if a mark `./` stood behind a slash in the path, or a blank behind marks
and slashes. A path has a canonical path for its tidy path exactly if it spells it, so two files
whose paths spell one canonical path are not accepted. -/
theorem tidied_form (s : String) :
    ('\\' ∉ (tidied s).toList ∧ (tidied s).toList.head? ≠ some '/' ∧
      ∀ c ∈ (tidied s).toList.getLast?, isBlank c = false) ∧
    (tidied (tidied s) = tidied s ↔ IsCanonical (tidied s).toList) ∧
    (¬IsCanonical (tidied s).toList ↔ ∃ marks slashes w,
      trim (forward s.toList) = lead marks slashes ++ w ∧
      (0 < slashes ∧ ['.', '/'] <+: w ∨ ∃ c ∈ w.head?, isBlank c = true)) ∧
    ∀ w, IsCanonical w →
      ((tidied s).toList = w ↔ Spells s.toList w) ∧
      ∀ (r : Repository) (room : Nat) (f g : SourceFile), [f, g].Sublist r.files → f.path = s →
        Spells s.toList w →
        Spells g.path.toList w → ∃ cause, r.validate room = .error (.invalidRepository cause) ∧
          (cause = .emptyPath ∨ ∃ paths, cause = .duplicatePaths paths) := by
  have htidied (s : String) : (tidied s).toList = tidy s.toList := String.toList_ofList
  refine ⟨?_, ?_, ?_, fun w hw => ⟨?_, fun r room f g hfiles hpath hf hg => ?_⟩⟩
  · rw [htidied]
    exact ⟨backslash_not_mem_tidy _, head?_tidy_ne_slash _, fun _ => isBlank_of_getLast?_tidy⟩
  · rw [← tidy_eq_self_iff, ← htidied (tidied s), String.toList_inj]
  · rw [htidied]
    exact not_isCanonical_tidy_iff
  · rw [htidied]
    exact tidy_eq_iff_of_isCanonical hw
  · subst hpath
    have hsame : tidy f.path.toList = tidy g.path.toList :=
      ((tidy_eq_iff_of_isCanonical hw).2 hf).trans ((tidy_eq_iff_of_isCanonical hw).2 hg).symm
    exact Repository.validate_of_same_path hfiles (congrArg String.ofList hsame)

/-- Two spellings of `src/a.ts`, one with a mark and one with a slash and backslashes between
blanks, are not accepted beside each other. -/
theorem tidied_form_of_two_spellings :
    let r : Repository := { files := [{ path := "././src/a.ts" }, { path := " \\src\\a.ts " }] }
    let w := "src/a.ts".toList
    IsCanonical w ∧ Spells "././src/a.ts".toList w ∧ Spells " \\src\\a.ts ".toList w ∧
      ∃ cause, r.validate = .error (.invalidRepository cause) ∧
        (cause = .emptyPath ∨ ∃ paths, cause = .duplicatePaths paths) := by
  intro r w
  have hends : w.head? = some 's' ∧ w.getLast? = some 's' := by decide
  have hw : IsCanonical w :=
    { backslash := by decide
      head := fun c hc => by
        obtain rfl := Option.some.inj (hends.1.symm.trans hc)
        decide
      last := fun c hc => by
        obtain rfl := Option.some.inj (hends.2.symm.trans hc)
        decide
      slash := by decide
      mark := by decide }
  have hmarks : Spells "././src/a.ts".toList w := ⟨2, 0, by decide⟩
  have hslash : Spells " \\src\\a.ts ".toList w := ⟨0, 1, by decide⟩
  exact ⟨hw, hmarks, hslash,
    ((tidied_form _).2.2.2 w hw).2 r _ _ _ (List.Sublist.refl _) rfl hmarks hslash⟩

/-- A mark behind a slash stays: the tidy path of `/./a` is not tidy, and the path
is accepted beside `a`. -/
theorem tidied_of_mark_behind_slash :
    let r : Repository := { files := [{ path := "a" }, { path := "/./a" }] }
    tidied "/./a" = "./a" ∧ tidied (tidied "/./a") = "a" ∧ r.validate = .ok () := by
  intro r
  have htidied : tidied "a" = "a" ∧ tidied "/./a" = "./a" ∧ tidied "./a" = "a" := by decide
  refine ⟨htidied.2.1, ?_,
    Repository.validate_eq_ok_iff.2 ⟨⟨List.cons_ne_nil _ _, ?_, ?_⟩, .inl rfl, .inl rfl⟩⟩
  · rw [htidied.2.1]
    exact htidied.2.2
  · decide
  · decide

end Path
end CodeSurvey
