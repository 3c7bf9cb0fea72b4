/-
# Reading manifests one after the other

Reading one manifest does one of three things (`Declared.read_cases`): its packages are added, it is
refused with a warning, or the reading breaks off, because the text asks for more than its reader
can do (`Declared.StopsAt`). So a run over several manifests gives a value exactly if it does not
break off, and then the warnings are those of the refused manifests (`Declared.value_foldlM_read`,
`Declared.warnings_foldlM_read`).

The manifests of files whose paths are distinct are the files with the paths of manifests that have
a text (`Declared.mem_inPathOrder`), and they are read in the order of their paths
(`Declared.pairwise_inPathOrder`).
-/

import CodeSurvey.Manifest.Declared
import CodeSurvey.Proofs.Journal
import CodeSurvey.Proofs.Keyed
import CodeSurvey.Proofs.Sorting
import Mathlib.Data.String.Basic

namespace CodeSurvey
namespace Declared

section Readers

variable {readers : Manifest.Readers}

/-- The failure at which reading a manifest breaks off. -/
def stop? (readers : Manifest.Readers) (m : String × SourceFile) : Option Failure :=
  match listing readers m.1 m.2 with
  | .ok _ => none
  | .error (.badManifest _) => none
  | .error f => some f

/-- Why a manifest is refused. -/
def refusal? (readers : Manifest.Readers) (m : String × SourceFile) : Option String :=
  match listing readers m.1 m.2 with
  | .error (.badManifest reason) => some reason
  | _ => none

/-- The warning that a refused manifest leaves. -/
def refused (path reason : String) : Warning := ⟨step, "Failed to parse " ++ path, some reason⟩

/-- The warning about a manifest, if it is refused. -/
def warning? (readers : Manifest.Readers) (m : String × SourceFile) : Option Warning :=
  (refusal? readers m).map (refused m.1)

/-- The packages with those that a manifest lists, if it can be read. -/
def accept (readers : Manifest.Readers) (d : Declared) (m : String × SourceFile) : Declared :=
  match listing readers m.1 m.2 with
  | .ok l => d.add ((ecosystems.lookup m.1).getD "") l
  | .error _ => d

/-- Whether the reader of a manifest gives up, with what failure: at an integer too long to convert,
at a value too deep inside others, or at half of a surrogate pair. -/
inductive StopsAt (readers : Manifest.Readers) : Failure → (path : String) → SourceFile → Prop
  | packageNumeral {file : SourceFile} {n left : Nat}
      (h : Json.read file.text readers.jsonRoom = .error ⟨.longInteger n, left⟩) :
      StopsAt readers (.integerTooLong n) "package.json" file
  | packageDepth {file : SourceFile} {container : String} {left : Nat}
      (h : Json.read file.text readers.jsonRoom = .error ⟨.tooDeep container, left⟩) :
      StopsAt readers (.tooDeep (Json.whileDecoding container)) "package.json" file
  | projectNumeral {file : SourceFile} {n : Nat}
      (h : Toml.read file.text readers.tomlFits = .error (.longInteger n)) :
      StopsAt readers (.integerTooLong n) "pyproject.toml" file
  | projectDepth {file : SourceFile} (h : Toml.read file.text readers.tomlFits = .error .tooDeep) :
      StopsAt readers (.tooDeep "") "pyproject.toml" file
  | half {file : SourceFile} {e : Utf8.EncodeError} (h : file.encodeError? = some e) :
      StopsAt readers (.notEncodable e) "pom.xml" file

/-- A manifest fails in two ways: it is refused, or its reader gives up. -/
theorem listing_error {path : String} {file : SourceFile} {f : Failure}
    (h : listing readers path file = .error f) :
    (∃ reason, f = .badManifest reason) ∨ StopsAt readers f path file := by
  unfold listing at h
  split at h
  · unfold Manifest.ofPackageJson at h
    split at h
    · rename_i hread
      obtain rfl := Except.error.inj h
      exact .inr (.packageNumeral hread)
    · rename_i hread
      obtain rfl := Except.error.inj h
      exact .inr (.packageDepth hread)
    · exact .inl ⟨_, (Except.error.inj h).symm⟩
    · cases h
    · exact .inl ⟨_, (Except.error.inj h).symm⟩
  · cases h
  · cases h
  · unfold Manifest.ofPyproject at h
    split at h
    · rename_i hread
      obtain rfl := Except.error.inj h
      exact .inr (.projectNumeral hread)
    · rename_i hread
      obtain rfl := Except.error.inj h
      exact .inr (.projectDepth hread)
    · exact .inl ⟨_, (Except.error.inj h).symm⟩
    · cases h
  · unfold SourceFile.checkEncodable Manifest.ofPom at h
    split at h
    · rename_i hencode
      obtain rfl := Except.error.inj h
      exact .inr (.half hencode)
    · split at h
      · exact .inl ⟨_, (Except.error.inj h).symm⟩
      · cases h
  · cases h

/-- Where the reader of a manifest gives up, nothing is listed. -/
theorem listing_of_stopsAt {f : Failure} {path : String} {file : SourceFile}
    (h : StopsAt readers f path file) : listing readers path file = .error f := by
  cases h with
  | packageNumeral h => rw [listing, Manifest.ofPackageJson, h]
  | packageDepth h => rw [listing, Manifest.ofPackageJson, h]
  | projectNumeral h => rw [listing, Manifest.ofPyproject, h]
  | projectDepth h => rw [listing, Manifest.ofPyproject, h]
  | half h =>
    rw [listing, SourceFile.checkEncodable, h]
    rfl

/-- No reader gives up by refusing. -/
theorem StopsAt.ne_badManifest {f : Failure} {path reason : String} {file : SourceFile}
    (h : StopsAt readers f path file) : f ≠ .badManifest reason := by
  rintro rfl
  cases h

theorem stop?_eq_some_iff {m : String × SourceFile} {f : Failure} :
    stop? readers m = some f ↔ StopsAt readers f m.1 m.2 := by
  unfold stop?
  constructor
  · intro h
    split at h
    · cases h
    · cases h
    · rename_i hne hlisting
      obtain rfl := Option.some.inj h
      exact (listing_error hlisting).resolve_left fun ⟨reason, hreason⟩ => hne reason hreason
  · intro h
    rw [listing_of_stopsAt h]
    split
    · rename_i he
      cases he
    · rename_i he
      exact absurd (Except.error.inj he) h.ne_badManifest
    · rename_i he
      rw [Except.error.inj he]

/-- What reading one more manifest does. -/
theorem read_cases (readers : Manifest.Readers) (d : Declared) (m : String × SourceFile) :
    (stop? readers m = none ∧ (read readers d m.1 m.2).outcome.value = .ok (d.accept readers m) ∧
        (read readers d m.1 m.2).outcome.warnings = (warning? readers m).toList) ∨
      ∃ f, stop? readers m = some f ∧ warning? readers m = none ∧
        (read readers d m.1 m.2).outcome.value = .error f := by
  cases h : listing readers m.1 m.2 with
  | ok l =>
    refine .inl ?_
    unfold stop? warning? refusal? accept read
    rw [h]
    exact ⟨rfl, rfl, rfl⟩
  | error f =>
    rcases listing_error h with ⟨reason, rfl⟩ | hstops
    · refine .inl ?_
      unfold stop? warning? refusal? accept read
      rw [h]
      exact ⟨rfl, rfl, rfl⟩
    · refine .inr ⟨f, stop?_eq_some_iff.2 hstops, ?_⟩
      unfold warning? refusal? read
      rw [h]
      cases f with
      | badManifest reason => exact absurd rfl hstops.ne_badManifest
      | _ => exact ⟨rfl, rfl⟩

/-- Reading manifests breaks off at the first whose reader gives up; without one it adds the
packages of all that can be read. -/
theorem value_foldlM_read (ms : List (String × SourceFile)) (d : Declared) :
    (ms.foldlM (fun (d : Declared) m => read readers d m.1 m.2) d).outcome.value =
      match ms.findSome? (stop? readers) with
      | none => .ok (ms.foldl (accept readers) d)
      | some f => .error f := by
  induction ms generalizing d with
  | nil => rfl
  | cons m ms ih =>
    rw [List.foldlM_cons, Attempt.outcome_bind, Recorded.value_bind]
    rcases read_cases readers d m with ⟨hm, hvalue, -⟩ | ⟨f, hm, -, hvalue⟩
    · rw [hvalue, List.findSome?_cons_of_isNone (by rw [hm]; rfl)]
      exact ih (d.accept readers m)
    · rw [hvalue, List.findSome?_cons, hm]
      rfl

/-- Reading manifests that does not break off warns of each that is refused, in order. -/
theorem warnings_foldlM_read {ms : List (String × SourceFile)}
    (h : ms.findSome? (stop? readers) = none) (d : Declared) :
    (ms.foldlM (fun (d : Declared) m => read readers d m.1 m.2) d).outcome.warnings =
      ms.filterMap (warning? readers) := by
  induction ms generalizing d with
  | nil => rfl
  | cons m ms ih =>
    have hrest : ms.findSome? (stop? readers) = none :=
      List.findSome?_eq_none_iff.2 fun n hn =>
        List.findSome?_eq_none_iff.1 h n (List.mem_cons_of_mem m hn)
    have hm : stop? readers m = none := List.findSome?_eq_none_iff.1 h m (List.mem_cons_self ..)
    rw [List.foldlM_cons, Attempt.outcome_bind, Recorded.warnings_bind]
    rcases read_cases readers d m with ⟨-, hvalue, hwarnings⟩ | ⟨f, hsome, -⟩
    · rw [hvalue, hwarnings]
      refine (congrArg _ (ih hrest (d.accept readers m))).trans ?_
      cases hw : warning? readers m with
      | none => rw [List.filterMap_cons_none hw]; rfl
      | some w => rw [List.filterMap_cons_some hw]; rfl
    · rw [hm] at hsome
      cases hsome

/-- The manifests among some files, in the order in which they are read. -/
def inPathOrder (files : List SourceFile) : List (String × SourceFile) :=
  (manifests files).mergeSort fun a b => !(b.1 < a.1)

theorem isEmpty_manifests {files : List SourceFile} (h : (manifests files).isEmpty = true) :
    inPathOrder files = [] := by
  rw [inPathOrder, List.isEmpty_iff.1 h, List.mergeSort_nil]

/-- The packages that files declare are those of their manifests, read in
order and then arranged. -/
theorem value_ofFilesBy (enumerate : List String → List String) (files : List SourceFile) :
    (ofFilesBy readers enumerate files).outcome.value =
      match (inPathOrder files).findSome? (stop? readers) with
      | none => .ok (((inPathOrder files).foldl (accept readers) {}).arrangeBy enumerate)
      | some f => .error f := by
  unfold ofFilesBy
  dsimp only
  split_ifs with h
  · rw [isEmpty_manifests h]
    rfl
  · rw [← inPathOrder, Attempt.outcome_bind, Recorded.value_bind, value_foldlM_read]
    cases (inPathOrder files).findSome? (stop? readers) <;> rfl

/-- Where reading does not break off, each refused manifest is warned of, in
the order of the paths. -/
theorem warnings_ofFilesBy (enumerate : List String → List String) {files : List SourceFile}
    (h : (inPathOrder files).findSome? (stop? readers) = none) :
    (ofFilesBy readers enumerate files).outcome.warnings =
      (inPathOrder files).filterMap (warning? readers) := by
  unfold ofFilesBy
  dsimp only
  split_ifs with hempty
  · rw [isEmpty_manifests hempty]
    rfl
  · rw [← inPathOrder, Attempt.outcome_bind, Recorded.warnings_bind, warnings_foldlM_read h,
      value_foldlM_read, h]
    exact List.append_nil _

/-- The packages that one list of requirements declares, whose names stand in order already. -/
theorem value_of_requirements {enumerate : List String → List String} {files : List SourceFile}
    {names : List String} (file : SourceFile) (h : manifests files = [("requirements.txt", file)])
    (hnames : Manifest.ofRequirements file.text = names) (hsome : names ≠ [])
    (henumerate : enumerate names = names)
    (hordered : names.Pairwise fun a b => !(Text.lowered b < Text.lowered a)) :
    (ofFilesBy readers enumerate files).outcome.value = .ok ⟨[("python", names)], []⟩ := by
  have hextend : extend "python" names [] = [("python", names)] := by
    rw [extend, if_neg (mt List.isEmpty_iff.1 hsome), Keyed.modify, List.nil_append]
  have hlookup : (ecosystems.lookup "requirements.txt").getD "" = "python" := by decide
  have harranged : arrangedBy enumerate names = names := by
    rw [arrangedBy, henumerate, List.mergeSort_of_pairwise hordered]
  rw [value_ofFilesBy, inPathOrder, h, List.mergeSort_singleton]
  show Except.ok (arrangeBy enumerate
    ⟨extend ((ecosystems.lookup "requirements.txt").getD "") (Manifest.ofRequirements file.text)
      [], []⟩) = _
  rw [hlookup, hnames, hextend]
  show Except.ok (Declared.mk [("python", arrangedBy enumerate names)] []) = _
  rw [harranged]

end Readers

/-- Whether a path is that of a manifest. -/
def IsManifest (path : String) : Prop := (ecosystems.lookup path).isSome = true

/-- Whether a file is one of some, with the path of a manifest and with text. -/
def Holds (files : List SourceFile) (path : String) (file : SourceFile) : Prop :=
  IsManifest path ∧ file ∈ files ∧ file.path = path ∧ file.content.isSome

section Distinct

variable {files : List SourceFile} (distinct : (files.map (·.path)).Nodup)

/-- The manifest that a file is, if it is one. -/
def manifest? (f : SourceFile) : Option (String × SourceFile) :=
  if (ecosystems.lookup f.path).isSome && f.content.isSome then some (f.path, f) else none

theorem manifest?_eq_some_iff {f : SourceFile} {m : String × SourceFile} :
    manifest? f = some m ↔ IsManifest m.1 ∧ f = m.2 ∧ f.path = m.1 ∧ f.content.isSome := by
  obtain ⟨path, file⟩ := m
  simp only [manifest?, IsManifest, Option.ite_none_right_eq_some, Bool.and_eq_true,
    Option.some.injEq, Prod.mk.injEq]
  constructor
  · rintro ⟨⟨hroot, hcontent⟩, rfl, rfl⟩
    exact ⟨hroot, rfl, rfl, hcontent⟩
  · rintro ⟨hroot, rfl, rfl, hcontent⟩
    exact ⟨⟨hroot, hcontent⟩, rfl, rfl⟩

theorem mem_filterMap_manifest? {m : String × SourceFile} :
    m ∈ files.filterMap manifest? ↔ Holds files m.1 m.2 := by
  simp only [List.mem_filterMap, Holds, manifest?_eq_some_iff]
  constructor
  · rintro ⟨f, hf, hroot, rfl, h⟩
    exact ⟨hroot, hf, h⟩
  · rintro ⟨hroot, hf, h⟩
    exact ⟨m.2, hf, hroot, rfl, h⟩

include distinct

theorem nodup_filterMap_manifest? : ((files.filterMap manifest?).map Prod.fst).Nodup := by
  rw [List.Nodup, List.pairwise_map, List.pairwise_filterMap]
  refine (List.pairwise_map.1 distinct).imp fun {f g} hfg m hm n hn => ?_
  rw [← (manifest?_eq_some_iff.1 hm).2.2.1, ← (manifest?_eq_some_iff.1 hn).2.2.1]
  exact hfg

/-- Files with distinct paths have each manifest once. -/
theorem manifests_of_nodup : manifests files = files.filterMap manifest? :=
  Keyed.ofList_of_nodup (nodup_filterMap_manifest? distinct)

/-- The manifests that are read are those among the files. -/
theorem mem_inPathOrder {m : String × SourceFile} :
    m ∈ inPathOrder files ↔ Holds files m.1 m.2 := by
  rw [inPathOrder, List.mem_mergeSort, manifests_of_nodup distinct, mem_filterMap_manifest?]

/-- Manifests are read in the order of their paths, each once. -/
theorem pairwise_inPathOrder : (inPathOrder files).Pairwise fun a b => a.1 < b.1 := by
  have hrank : ∀ a b : String × SourceFile, (!decide (b.1 < a.1)) = true ↔ a.1 ≤ b.1 :=
    fun a b => by
    rw [Bool.not_eq_true', decide_eq_false_iff_not, not_lt]
  have hordered : (inPathOrder files).Pairwise fun a b => a.1 ≤ b.1 :=
    pairwise_mergeSort_of_rank hrank _
  have hnodup : (inPathOrder files).Pairwise fun a b => a.1 ≠ b.1 := by
    refine List.pairwise_map.1 (List.Perm.nodup_iff ?_ |>.1 (nodup_filterMap_manifest? distinct))
    rw [← manifests_of_nodup distinct]
    exact (List.mergeSort_perm _ _).symm.map _
  exact hordered.imp₂ (fun _ _ hle hne => lt_of_le_of_ne hle hne) hnodup

end Distinct

/-- Manifests in the order of their paths are known by what is among them. -/
theorem eq_of_pairwise_path {α : Type} {ms ns : List (String × α)}
    (hms : ms.Pairwise fun a b => a.1 < b.1) (hns : ns.Pairwise fun a b => a.1 < b.1)
    (h : ∀ m, m ∈ ms ↔ m ∈ ns) : ms = ns :=
  eq_of_pairwise_of_mem_iff (fun _ _ => String.lt_asymm) hms hns h

end Declared
end CodeSurvey
