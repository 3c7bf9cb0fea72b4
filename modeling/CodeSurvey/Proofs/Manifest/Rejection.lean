/-
# What a broken manifest costs

A manifest that is refused leaves a warning and adds nothing, so the packages that files declare are
those that they declare without it. Only what its reader cannot do stops the reading of all
manifests (`Declared.Hinders`): an integer of more digits than can be converted, or values too deep
inside one another, in the text of a `package.json` or a `pyproject.toml`, or half of a surrogate
pair in that of a `pom.xml`. Where no reader gives up, a broken manifest costs only itself
(`Declared.broken_manifests_cost_themselves`).
-/

import CodeSurvey.Proofs.Json.Overlong
import CodeSurvey.Proofs.Manifest.Reading
import CodeSurvey.Proofs.Toml.Overlong

namespace CodeSurvey
namespace Declared

variable {readers : Manifest.Readers}

/-- What in a manifest makes its reader give up with a failure: a numeral of more digits than can be
converted stands in the text; or as many brackets open in it as there is room for containers; or a
place stands in it at which calls are lacking, no more of them than the brackets before it account
for; or a half of a surrogate pair stands there alone. -/
inductive Hinders (readers : Manifest.Readers) : Failure → (path : String) → SourceFile → Prop
  | numeral {path : String} {file : SourceFile} {n : Nat}
      (hpath : path ∈ ["package.json", "pyproject.toml"])
      (hlong : Numeral.maxDigits < n) (h : Numeral.StandsIn n file.text.toList) :
      Hinders readers (.integerTooLong n) path file
  | brackets {file : SourceFile} {container : String}
      (h : readers.jsonRoom ≤ Reading.openings file.text.toList) :
      Hinders readers (.tooDeep (Json.whileDecoding container)) "package.json" file
  | calls {file : SourceFile}
      (h : (Toml.roomAt readers.tomlFits 0).Lacks (Text.unifyLineEnds file.text.toList)) :
      Hinders readers (.tooDeep "") "pyproject.toml" file
  | half {file : SourceFile} {e : Utf8.EncodeError} (h : file.halves ≠ []) :
      Hinders readers (.notEncodable e) "pom.xml" file

/-- A reader gives up only at what hinders it. -/
theorem StopsAt.hinders {f : Failure} {path : String} {file : SourceFile}
    (h : StopsAt readers f path file) : Hinders readers f path file := by
  cases h with
  | packageNumeral h =>
    cases h ▸ Json.within_read file.text readers.jsonRoom with
    | error hfound =>
      obtain ⟨hlong, hstands⟩ := hfound _ rfl
      exact .numeral (by simp) hlong hstands
  | packageDepth h =>
    cases h ▸ Json.within_read file.text readers.jsonRoom with
    | error hfound =>
      obtain ⟨before, place, depth, htext, hdepth, hroom⟩ := hfound _ rfl
      have hle : readers.jsonRoom ≤ depth := Nat.not_lt.1 (of_decide_eq_false hroom)
      have hbefore : depth ≤ Reading.openings before := by simpa [Json.roomAt] using hdepth
      refine .brackets (hle.trans (hbefore.trans ?_))
      rw [htext, Reading.openings, Reading.openings, List.countP_append]
      exact Nat.le_add_right ..
  | projectNumeral h =>
    cases h ▸ Toml.within_read file.text readers.tomlFits with
    | error hfound =>
      obtain ⟨hlong, hstands⟩ := hfound _ rfl
      exact .numeral (by simp) hlong hstands.of_unifyLineEnds
  | projectDepth h =>
    cases h ▸ Toml.within_read file.text readers.tomlFits with
    | error hfound => exact .calls (hfound _ rfl)
  | half h =>
    refine .half fun hnone => ?_
    obtain ⟨s, -, hs⟩ := Option.bind_eq_some_iff.1 h
    rw [hnone] at hs
    cases hs

theorem refusal?_eq_some_iff {m : String × SourceFile} {reason : String} :
    refusal? readers m = some reason ↔ listing readers m.1 m.2 = .error (.badManifest reason) := by
  unfold refusal?
  split
  · rename_i r h
    rw [h, Option.some.injEq, Except.error.injEq, Failure.badManifest.injEq]
  · rename_i hne
    exact ⟨fun h => (nomatch h), fun h => absurd h (hne reason)⟩

/-- The manifests that are refused, each with the reason, in the order of their paths. -/
def refusals (readers : Manifest.Readers) (files : List SourceFile) : List (String × String) :=
  (inPathOrder files).filterMap fun m => (refusal? readers m).map fun reason => (m.1, reason)

/-- Whether a file is a manifest that is refused. -/
def isRefused (readers : Manifest.Readers) (f : SourceFile) : Bool :=
  (manifest? f).any fun m => (refusal? readers m).isSome

/-- The files without those that are refused as manifests. -/
def withoutRefused (readers : Manifest.Readers) (files : List SourceFile) : List SourceFile :=
  files.filter (!isRefused readers ·)

/-- A refused manifest adds nothing. -/
theorem accept_of_refused {m : String × SourceFile} (h : (refusal? readers m).isSome = true)
    (d : Declared) : d.accept readers m = d := by
  obtain ⟨reason, hreason⟩ := Option.isSome_iff_exists.1 h
  unfold accept
  rw [refusal?_eq_some_iff.1 hreason]

/-- Without the refused manifests the packages are the same. -/
theorem foldl_accept_filter (ms : List (String × SourceFile)) (d : Declared) :
    (ms.filter fun m => !(refusal? readers m).isSome).foldl (accept readers) d =
      ms.foldl (accept readers) d := by
  rw [List.foldl_filter]
  congr 1
  funext d m
  split_ifs with h
  · rfl
  · rw [Bool.not_eq_true, Bool.not_eq_false'] at h
    exact (accept_of_refused h d).symm

/-- Whether files declare some packages although manifests are refused: each refused manifest, given
with the reason, is warned of once, in the order of the paths, and without the refused manifests the
packages are the same. -/
structure Tolerates (readers : Manifest.Readers) (enumerate : List String → List String)
    (files : List SourceFile) (d : Declared) (rs : List (String × String)) : Prop where
  value : (ofFilesBy readers enumerate files).outcome.value = .ok d
  warnings : (ofFilesBy readers enumerate files).outcome.warnings = rs.map fun r => refused r.1 r.2
  ordered : rs.Pairwise fun a b => a.1 < b.1
  mem_iff : ∀ path reason, (path, reason) ∈ rs ↔
    ∃ file, Holds files path file ∧ listing readers path file = .error (.badManifest reason)
  value_without : (ofFilesBy readers enumerate (withoutRefused readers files)).outcome.value = .ok d
  warnings_without :
    (ofFilesBy readers enumerate (withoutRefused readers files)).outcome.warnings = []

section Distinct

variable {files : List SourceFile} (distinct : (files.map (·.path)).Nodup)
include distinct

/-- What is read of files without the refused manifests is what is left of what
is read of all files. -/
theorem inPathOrder_withoutRefused :
    inPathOrder (withoutRefused readers files) =
      (inPathOrder files).filter fun m => !(refusal? readers m).isSome := by
  have hdistinct : ((withoutRefused readers files).map (·.path)).Nodup :=
    distinct.sublist (List.filter_sublist.map _)
  refine eq_of_pairwise_path (pairwise_inPathOrder hdistinct)
    ((pairwise_inPathOrder distinct).filter _) fun m => ?_
  rw [mem_inPathOrder hdistinct, List.mem_filter, mem_inPathOrder distinct,
    ← mem_filterMap_manifest?, ← mem_filterMap_manifest?, List.mem_filterMap, List.mem_filterMap]
  constructor
  · rintro ⟨f, hf, hm⟩
    obtain ⟨hmem, hkept⟩ := List.mem_filter.1 hf
    rw [isRefused, hm] at hkept
    exact ⟨⟨f, hmem, hm⟩, hkept⟩
  · rintro ⟨⟨f, hf, hm⟩, hkept⟩
    refine ⟨f, List.mem_filter.2 ⟨hf, ?_⟩, hm⟩
    rw [isRefused, hm]
    exact hkept

/-- The manifests that are refused, each with the reason, stand in the order of their paths. -/
theorem pairwise_refusals : (refusals readers files).Pairwise fun a b => a.1 < b.1 := by
  refine List.pairwise_filterMap.2
    ((pairwise_inPathOrder distinct).imp fun {m n} hmn a ha b hb => ?_)
  obtain ⟨_, -, rfl⟩ := Option.map_eq_some_iff.1 ha
  obtain ⟨_, -, rfl⟩ := Option.map_eq_some_iff.1 hb
  exact hmn

theorem mem_refusals {path reason : String} :
    (path, reason) ∈ refusals readers files ↔
      ∃ file, Holds files path file ∧ listing readers path file = .error (.badManifest reason) := by
  unfold refusals
  rw [List.mem_filterMap]
  constructor
  · rintro ⟨⟨p, file⟩, hm, hreason⟩
    obtain ⟨r, hr, hp⟩ := Option.map_eq_some_iff.1 hreason
    cases hp
    exact ⟨file, (mem_inPathOrder distinct).1 hm, refusal?_eq_some_iff.1 hr⟩
  · rintro ⟨file, hholds, hlisting⟩
    exact ⟨(path, file), (mem_inPathOrder distinct).2 hholds,
      Option.map_eq_some_iff.2 ⟨reason, refusal?_eq_some_iff.2 hlisting, rfl⟩⟩

/-- Where no reader gives up, refused manifests cost nothing but themselves. -/
theorem tolerates_of_findSome?_eq_none (enumerate : List String → List String)
    (h : (inPathOrder files).findSome? (stop? readers) = none) :
    Tolerates readers enumerate files
      (((inPathOrder files).foldl (accept readers) {}).arrangeBy enumerate)
      (refusals readers files) := by
  have hwithout : (inPathOrder (withoutRefused readers files)).findSome?
      (stop? readers) = none := by
    rw [inPathOrder_withoutRefused distinct, List.findSome?_eq_none_iff]
    exact fun m hm => List.findSome?_eq_none_iff.1 h m (List.mem_of_mem_filter hm)
  have hwarnings : (inPathOrder files).filterMap (warning? readers) =
      (refusals readers files).map fun r => refused r.1 r.2 := by
    rw [refusals, List.map_filterMap]
    refine List.filterMap_congr fun m _ => ?_
    rw [warning?, Option.map_map]
    rfl
  have hnone : (inPathOrder (withoutRefused readers files)).filterMap (warning? readers) = [] := by
    rw [inPathOrder_withoutRefused distinct, List.filterMap_eq_nil_iff]
    intro m hm
    have hkept := (List.mem_filter.1 hm).2
    rw [Bool.not_eq_true', Option.isSome_eq_false_iff, Option.isNone_iff_eq_none] at hkept
    rw [warning?, hkept, Option.map_none]
  exact {
    value := by rw [value_ofFilesBy, h]
    warnings := (warnings_ofFilesBy enumerate h).trans hwarnings
    ordered := pairwise_refusals distinct
    mem_iff := fun _ _ => mem_refusals distinct
    value_without := by
      rw [value_ofFilesBy, hwithout, inPathOrder_withoutRefused distinct, foldl_accept_filter]
    warnings_without := (warnings_ofFilesBy enumerate hwithout).trans hnone }

end Distinct

/-- A package description that ends too early. -/
def brokenPackage : SourceFile := { path := "package.json", content := some "\x7boops" }

/-- Why it is refused. -/
def brokenReason : String :=
  "invalid JSON: Expecting property name enclosed in double quotes: line 1 column 2 (char 1)"

/-- A list of one requirement. -/
def flaskRequired : SourceFile := { path := "requirements.txt", content := some "flask\n" }

theorem listing_brokenPackage :
    listing {} "package.json" brokenPackage = .error (.badManifest brokenReason) := by
  have hread : Json.read brokenPackage.text = .error ⟨.expectedName, 4⟩ := by cbv
  have hmessage : "invalid JSON: " ++
      (⟨.expectedName, 4⟩ : Json.Fault).message brokenPackage.text.toList =
      brokenReason := by
    decide +kernel
  rw [← hmessage, listing, Manifest.ofPackageJson, hread]

theorem value_flaskRequired :
    (ofFilesBy {} Text.sortedDistinct [flaskRequired]).outcome.value =
      .ok ⟨[("python", ["flask"])], []⟩ :=
  value_of_requirements flaskRequired (by decide +kernel) (by decide +kernel) (by decide)
    (Text.sortedDistinct_of_pairwise (List.pairwise_singleton ..)) (List.pairwise_singleton ..)

theorem withoutRefused_brokenPackage :
    withoutRefused {} [brokenPackage, flaskRequired] = [flaskRequired] := by
  have hbroken : ¬(!isRefused {} brokenPackage) = true := by
    show ¬(!(refusal? {} ("package.json", brokenPackage)).isSome) = true
    rw [refusal?_eq_some_iff.2 listing_brokenPackage]
    exact Bool.false_ne_true
  have hread : (!isRefused {} flaskRequired) = true := by decide +kernel
  rw [withoutRefused, List.filter_cons_of_neg (p := (!isRefused {} ·)) hbroken,
    List.filter_cons_of_pos (p := (!isRefused {} ·)) hread, List.filter_nil]

theorem holds_brokenPackage {path : String} {file : SourceFile}
    (h : Holds [brokenPackage, flaskRequired] path file) :
    (path, file) = ("package.json", brokenPackage) ∨
      (path, file) = ("requirements.txt", flaskRequired) := by
  obtain ⟨-, hfile, rfl, -⟩ := h
  rcases List.mem_pair.1 hfile with rfl | rfl
  · exact .inl rfl
  · exact .inr rfl

/-- **A broken manifest costs only itself.** Files declare some packages although manifests are
refused, unless the reader of a manifest gives up: then what hinders it stands in the manifest, and
nothing is declared at all. -/
theorem broken_manifests_cost_themselves {files : List SourceFile}
    (distinct : (files.map (·.path)).Nodup) (readers : Manifest.Readers)
    (enumerate : List String → List String) :
    ((∀ f path file, Holds files path file → ¬StopsAt readers f path file) ∧
        ∃ d rs, Tolerates readers enumerate files d rs) ∨
      ∃ f path file, Holds files path file ∧ StopsAt readers f path file ∧
        Hinders readers f path file ∧
        (ofFilesBy readers enumerate files).outcome.value = .error f := by
  cases hstop : (inPathOrder files).findSome? (stop? readers) with
  | none =>
    refine .inl ⟨fun f path file hholds hstops => ?_, _, _,
      tolerates_of_findSome?_eq_none distinct enumerate hstop⟩
    have hnone := List.findSome?_eq_none_iff.1 hstop (path, file)
      ((mem_inPathOrder distinct).2 hholds)
    exact nomatch hnone.symm.trans (stop?_eq_some_iff.2 hstops)
  | some f =>
    obtain ⟨m, hm, hf⟩ := List.exists_of_findSome?_eq_some hstop
    have hstops := stop?_eq_some_iff.1 hf
    refine .inr ⟨f, m.1, m.2, (mem_inPathOrder distinct).1 hm, hstops, hstops.hinders, ?_⟩
    rw [value_ofFilesBy, hstop]

theorem broken_manifests_cost_themselves_of_two :
    ([brokenPackage, flaskRequired].map (·.path)).Nodup ∧
      Tolerates {} Text.sortedDistinct [brokenPackage, flaskRequired] ⟨[("python", ["flask"])], []⟩
        [("package.json", brokenReason)] := by
  have hdistinct : ([brokenPackage, flaskRequired].map (·.path)).Nodup := by decide
  refine ⟨hdistinct, ?_⟩
  rcases broken_manifests_cost_themselves hdistinct {} Text.sortedDistinct with
    ⟨-, d, rs, h⟩ | ⟨f, path, file, hmanifest, hstops, -, -⟩
  · have hd := h.value_without
    rw [withoutRefused_brokenPackage, value_flaskRequired] at hd
    have hrs : rs = [("package.json", brokenReason)] := by
      refine eq_of_pairwise_path h.ordered (List.pairwise_singleton ..) fun ⟨path, reason⟩ => ?_
      rw [h.mem_iff, List.mem_singleton]
      constructor
      · rintro ⟨file, hmanifest, hlisting⟩
        rcases holds_brokenPackage hmanifest with he | he
        · cases he
          cases listing_brokenPackage.symm.trans hlisting
          rfl
        · cases he
          cases hlisting
      · intro he
        cases he
        exact ⟨_, ⟨rfl, List.mem_cons_self .., rfl, rfl⟩, listing_brokenPackage⟩
    rw [Except.ok.inj hd, ← hrs]
    exact h
  · -- Neither of the two makes its reader give up.
    rcases holds_brokenPackage hmanifest with he | he
    · cases he
      exact absurd (Except.error.inj
        (listing_of_stopsAt hstops |>.symm.trans listing_brokenPackage))
        hstops.ne_badManifest
    · cases he
      cases listing_of_stopsAt hstops

/-- The text of an object with an integer of more digits than can be converted. -/
def longText : String :=
  String.ofList ("\x7b\"build\": ".toList ++ '1' ::
    (List.replicate Numeral.maxDigits '1' ++ ['\x7d']))

/-- A package description with an integer of more digits than can be converted. -/
def longPackage : SourceFile := { path := "package.json", content := some longText }

/-- One integer of more digits than can be converted costs the packages of every manifest. -/
theorem long_integer_costs_all :
    ([longPackage, flaskRequired].map (·.path)).Nodup ∧
      ∀ d, (ofFilesBy {} Text.sortedDistinct
        [longPackage, flaskRequired]).outcome.value ≠ .ok d := by
  have hdistinct : ([longPackage, flaskRequired].map (·.path)).Nodup := by decide
  refine ⟨hdistinct, fun d => ?_⟩
  have hdigits : ∀ c ∈ List.replicate Numeral.maxDigits '1', Text.isDigitAscii c = true := by
    intro c hc
    rw [List.eq_of_mem_replicate hc]
    rfl
  have hlong : Numeral.maxDigits < (List.replicate Numeral.maxDigits '1').length + 1 := by
    rw [List.length_replicate]
    exact Nat.lt_succ_self _
  have hroom : 0 < Json.usualRoom := by decide
  have hread : Json.read longPackage.text = .error _ := Json.read_of_long hroom hdigits hlong
  have hholds : Holds [longPackage, flaskRequired] "package.json" longPackage :=
    ⟨rfl, List.mem_cons_self .., rfl, rfl⟩
  rw [value_ofFilesBy]
  cases hfound : (inPathOrder [longPackage, flaskRequired]).findSome? (stop? {}) with
  | none =>
    have hnone := List.findSome?_eq_none_iff.1 hfound ("package.json", longPackage)
      ((mem_inPathOrder hdistinct).2 hholds)
    exact nomatch hnone.symm.trans (stop?_eq_some_iff.2 (.packageNumeral hread))
  | some f => exact fun h => nomatch h

end Declared
end CodeSurvey
