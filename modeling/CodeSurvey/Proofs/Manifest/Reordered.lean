/-
# Declarations in another order

Two texts of a manifest declare the same in another order (`Declared.Redeclares`) if they have the
same lines, or the same names under each member, or the same entries in each list. Such texts list
the same packages (`Declared.listing_of_redeclares`). So do files whose manifests declare the same,
also when the files themselves stand in another order (`Declared.Reordered`): the packages of each
ecosystem are the same, and so is their order up to that of names that differ only in case
(`Declared.declared_of_reordered`).
-/

import CodeSurvey.Proofs.Manifest.Arranged
import CodeSurvey.Proofs.Manifest.Reading

namespace CodeSurvey
namespace Declared

/-- Whether two members hold objects with the same keys, or the same value. -/
inductive SameKeys : Option Json → Option Json → Prop
  | objects {ms ns : List (String × Json)} (h : SameMembers (ms.map Prod.fst) (ns.map Prod.fst)) :
      SameKeys (some (.object ms)) (some (.object ns))
  | same (v : Option Json) : SameKeys v v

/-- Whether two members hold lists of the same entries, or the same value. -/
inductive SameEntries : Option Toml → Option Toml → Prop
  | arrays {vs ws : List Toml} (h : SameMembers vs ws) :
      SameEntries (some (.array vs)) (some (.array ws))
  | same (v : Option Toml) : SameEntries v v

/-- Whether each member of a table has its like in another table, and the other way round. -/
def Alike (R : Toml → Toml → Prop) (v w : Toml) : Prop :=
  (∀ m ∈ v.members, ∃ n ∈ w.members, R m.2 n.2) ∧ ∀ n ∈ w.members, ∃ m ∈ v.members, R m.2 n.2

/-- Whether two project descriptions list the same entries and have the same keys where
names are looked for. -/
structure SameProject (v w : Toml) : Prop where
  dependencies : SameEntries ((v.tableAt "project").member? "dependencies")
    ((w.tableAt "project").member? "dependencies")
  optional : Alike (fun a b => SameEntries (some a) (some b))
    ((v.tableAt "project").tableAt "optional-dependencies")
    ((w.tableAt "project").tableAt "optional-dependencies")
  groups : Alike (fun a b => SameEntries (some a) (some b)) (v.tableAt "dependency-groups")
    (w.tableAt "dependency-groups")
  poetry : SameMembers (Manifest.keysAt "dependencies" ((v.tableAt "tool").tableAt "poetry"))
    (Manifest.keysAt "dependencies" ((w.tableAt "tool").tableAt "poetry"))
  poetryDevelopment :
    SameMembers (Manifest.keysAt "dev-dependencies" ((v.tableAt "tool").tableAt "poetry"))
    (Manifest.keysAt "dev-dependencies" ((w.tableAt "tool").tableAt "poetry"))
  poetryGroups : Alike (fun a b =>
    SameMembers (Manifest.keysAt "dependencies" a) (Manifest.keysAt "dependencies" b))
    (((v.tableAt "tool").tableAt "poetry").tableAt "group")
      (((w.tableAt "tool").tableAt "poetry").tableAt "group")

/-- Whether two manifests declare the same in another order. -/
inductive Redeclares (readers : Manifest.Readers) :
    (path : String) → (file file' : SourceFile) → Prop
  | same {path : String} {file file' : SourceFile} (hcontent : file.content = file'.content)
      (hhalves : file.halves = file'.halves) : Redeclares readers path file file'
  | lines {path : String} {file file' : SourceFile}
      (hpath : path ∈ ["requirements.txt", "requirements-dev.txt", "build.gradle",
        "build.gradle.kts"])
      (h : SameMembers (Text.lines file.text.toList) (Text.lines file'.text.toList)) :
      Redeclares readers path file file'
  | package {file file' : SourceFile} {ms ns : List (String × Json)}
      (hread : Json.read file.text readers.jsonRoom = .ok (.object ms))
      (hread' : Json.read file'.text readers.jsonRoom = .ok (.object ns))
      (h : ∀ key ∈ ["dependencies", "peerDependencies", "devDependencies"],
        SameKeys (ms.lookup key) (ns.lookup key)) :
      Redeclares readers "package.json" file file'
  | project {file file' : SourceFile} {v w : Toml}
      (hread : Toml.read file.text readers.tomlFits = .ok v)
      (hread' : Toml.read file'.text readers.tomlFits = .ok w) (h : SameProject v w) :
      Redeclares readers "pyproject.toml" file file'

variable {readers : Manifest.Readers}

section Listing

theorem SameKeys.packageNames {ms ns : List (String × Json)} {key : String}
    (h : SameKeys (ms.lookup key) (ns.lookup key)) :
    SameMembers (Manifest.packageNames key (.object ms))
      (Manifest.packageNames key (.object ns)) := by
  unfold Manifest.packageNames Json.member?
  dsimp only
  generalize ms.lookup key = v at *
  generalize ns.lookup key = w at *
  cases h with
  | objects h => exact fun a => Text.mem_sorted.trans ((h a).trans Text.mem_sorted.symm)
  | same => exact .refl _

theorem SameEntries.listedNames {v w : Option Toml} (h : SameEntries v w) :
    SameMembers (Manifest.listedNames v) (Manifest.listedNames w) := by
  cases h with
  | arrays h => exact (h.filterMap _).filter _
  | same => exact .refl _

theorem Alike.refl {R : Toml → Toml → Prop} (hR : ∀ a, R a a) (v : Toml) : Alike R v v :=
  ⟨fun m hm => ⟨m, hm, hR _⟩, fun m hm => ⟨m, hm, hR _⟩⟩

/-- What is found in the members of tables that are alike. -/
theorem Alike.flatMap {R : Toml → Toml → Prop} {v w : Toml} (h : Alike R v w)
    {f : Toml → List String} (hf : ∀ a b, R a b → SameMembers (f a) (f b)) :
    SameMembers (v.members.flatMap fun m => f m.2) (w.members.flatMap fun m => f m.2) := by
  intro name
  rw [List.mem_flatMap, List.mem_flatMap]
  constructor
  · rintro ⟨m, hm, hname⟩
    obtain ⟨n, hn, hmn⟩ := h.1 m hm
    exact ⟨n, hn, (hf _ _ hmn name).1 hname⟩
  · rintro ⟨n, hn, hname⟩
    obtain ⟨m, hm, hmn⟩ := h.2 n hn
    exact ⟨m, hm, (hf _ _ hmn name).2 hname⟩

/-- Whether two listings list the same packages. -/
structure SameListing (l l' : Listing) : Prop where
  runtime : SameMembers l.runtime l'.runtime
  development : SameMembers l.development l'.development

theorem SameProject.projectListing {v w : Toml} (h : SameProject v w) :
    SameListing (Manifest.projectListing v) (Manifest.projectListing w) where
  runtime := h.dependencies.listedNames
  development := by
    rw [Manifest.projectListing, Manifest.projectListing]
    dsimp only
    rw [List.flatMap_append, List.flatMap_append]
    exact (h.optional.flatMap fun _ _ hab => hab.listedNames).append
      (h.groups.flatMap fun _ _ hab => hab.listedNames)

theorem SameProject.poetryListing {v w : Toml} (h : SameProject v w) :
    SameListing (Manifest.poetryListing v) (Manifest.poetryListing w) where
  runtime := h.poetry.filter _
  development := h.poetryDevelopment.append (h.poetryGroups.flatMap fun _ _ hab => hab)

/-- The packages of a list that is shown as a set are equal, not only the same. -/
theorem SameProject.listing {content content' : String} {v w : Toml}
    (hread : Toml.read content readers.tomlFits = .ok v)
    (hread' : Toml.read content' readers.tomlFits = .ok w) (h : SameProject v w) :
    Manifest.ofPyproject content readers = Manifest.ofPyproject content' readers := by
  have hruntime :=
    Text.sortedDistinct_congr (h.projectListing.runtime.append h.poetryListing.runtime)
  have hdevelopment :=
    Text.sortedDistinct_congr (h.projectListing.development.append h.poetryListing.development)
  rw [Manifest.ofPyproject, Manifest.ofPyproject, hread, hread']
  dsimp only
  rw [hruntime, hdevelopment]

theorem sameMembers_gradleLines {content content' : String}
    (h : SameMembers (Text.lines content.toList) (Text.lines content'.toList)) :
    SameMembers (Manifest.gradleLines content) (Manifest.gradleLines content') := h.filterMap _

theorem ofGradle_congr {content content' : String}
    (h : SameMembers (Text.lines content.toList) (Text.lines content'.toList)) :
    Manifest.ofGradle content = Manifest.ofGradle content' := by
  have hlines := sameMembers_gradleLines h
  rw [Manifest.ofGradle, Manifest.ofGradle]
  simp only [List.partition_eq_filter_filter]
  rw [Text.sortedDistinct_congr (((hlines.filter _).filter _).map Prod.snd),
    Text.sortedDistinct_congr ((hlines.filter _).map Prod.snd)]

/-- Texts that declare the same in another order list the same packages, or are not read alike. -/
theorem listing_of_redeclares {path : String} {file file' : SourceFile}
    (h : Redeclares readers path file file') :
    listing readers path file = listing readers path file' ∨
      ∃ l l', listing readers path file = .ok l ∧ listing readers path file' = .ok l' ∧
        SameListing l l' := by
  cases h with
  | same hcontent hhalves =>
    have htext : file.text = file'.text := by rw [SourceFile.text, SourceFile.text, hcontent]
    have hencode : file.checkEncodable = file'.checkEncodable := by
      rw [SourceFile.checkEncodable, SourceFile.checkEncodable, SourceFile.encodeError?,
        SourceFile.encodeError?, hcontent, hhalves]
    refine .inl ?_
    unfold listing
    rw [htext, hencode]
  | lines hpath h =>
    simp only [List.mem_cons, List.not_mem_nil, or_false] at hpath
    rcases hpath with rfl | rfl | rfl | rfl
    · exact .inr ⟨_, _, rfl, rfl, h.filterMap _, .refl _⟩
    · exact .inr ⟨_, _, rfl, rfl, .refl _, h.filterMap _⟩
    · exact .inl (congrArg Except.ok (ofGradle_congr h))
    · exact .inl (congrArg Except.ok (ofGradle_congr h))
  | @package _ _ ms ns hread hread' h =>
    have hnames : ∀ key ∈ ["dependencies", "peerDependencies", "devDependencies"],
        SameMembers (Manifest.packageNames key (.object ms))
          (Manifest.packageNames key (.object ns)) :=
      fun key hkey => (h key hkey).packageNames
    refine .inr ⟨_, _, by rw [listing, Manifest.ofPackageJson, hread],
      by rw [listing, Manifest.ofPackageJson, hread'], ?_⟩
    exact ⟨(hnames _ (by simp)).append (hnames _ (by simp)), hnames _ (by simp)⟩
  | project hread hread' h => exact .inl (h.listing hread hread')

end Listing

section Groups

/-- Whether groups of packages by ecosystem hold the same packages. -/
def SameGroups : (ms ns : List (String × List String)) → Prop :=
  List.Forall₂ fun m n => m.1 = n.1 ∧ SameMembers m.2 n.2

theorem SameGroups.extend {ms ns : List (String × List String)} (h : SameGroups ms ns)
    (ecosystem : String) {names names' : List String} (hnames : SameMembers names names') :
    SameGroups (extend ecosystem names ms) (extend ecosystem names' ns) := by
  unfold Declared.extend
  rw [hnames.isEmpty_eq]
  split_ifs
  · exact h
  · induction h with
    | nil => exact .cons ⟨rfl, (SameMembers.refl []).append hnames⟩ .nil
    | @cons m n ms ns hmn hrest ih =>
      obtain ⟨k, xs⟩ := m
      obtain ⟨k', ys⟩ := n
      obtain ⟨rfl, hxs⟩ := hmn
      rw [Keyed.modify, Keyed.modify]
      split_ifs
      · exact .cons ⟨rfl, hxs.append hnames⟩ hrest
      · exact .cons ⟨rfl, hxs⟩ ih

/-- Whether two states of the reading hold the same packages. -/
structure SamePackages (d e : Declared) : Prop where
  runtime : SameGroups d.runtime e.runtime
  development : SameGroups d.development e.development

theorem SamePackages.add {d e : Declared} (h : SamePackages d e) (ecosystem : String)
    {l l' : Listing} (hl : SameListing l l') :
    SamePackages (d.add ecosystem l) (e.add ecosystem l') where
  runtime := h.runtime.extend ecosystem hl.runtime
  development := h.development.extend ecosystem hl.development

end Groups

/-- Whether two manifests have one path and declare the same in another order. -/
def Corresponds (readers : Manifest.Readers) (m n : String × SourceFile) : Prop :=
  m.1 = n.1 ∧ Redeclares readers m.1 m.2 n.2

theorem Corresponds.stop?_eq {m n : String × SourceFile} (h : Corresponds readers m n) :
    stop? readers m = stop? readers n := by
  obtain ⟨path, file⟩ := m
  obtain ⟨path', file'⟩ := n
  obtain ⟨rfl, h⟩ := h
  unfold stop?
  rcases listing_of_redeclares h with heq | ⟨l, l', hl, hl', -⟩
  · rw [heq]
  · rw [hl, hl']

/-- One more manifest of each. -/
theorem Corresponds.accept {m n : String × SourceFile} (h : Corresponds readers m n)
    {d e : Declared} (hd : SamePackages d e) :
    SamePackages (d.accept readers m) (e.accept readers n) := by
  obtain ⟨path, file⟩ := m
  obtain ⟨path', file'⟩ := n
  obtain ⟨rfl, h⟩ := h
  unfold Declared.accept
  rcases listing_of_redeclares h with heq | ⟨l, l', hl, hl', hsame⟩
  · rw [heq]
    dsimp only
    cases listing readers path file' with
    | ok l => exact hd.add _ ⟨.refl _, .refl _⟩
    | error f => exact hd
  · rw [hl, hl']
    exact hd.add _ hsame

/-- Reading manifests side by side gives the same packages. -/
theorem samePackages_foldl {ms ns : List (String × SourceFile)}
    (h : List.Forall₂ (Corresponds readers) ms ns) :
    SamePackages (ms.foldl (Declared.accept readers) {})
      (ns.foldl (Declared.accept readers) {}) := by
  have hstart : SamePackages {} {} := ⟨List.Forall₂.nil, List.Forall₂.nil⟩
  exact List.rel_foldl (P := SamePackages) (R := Corresponds readers) (fun _ _ hd _ _ hmn =>
    hmn.accept hd) hstart h

/-- Of manifests side by side both or none stop the reading, with the same failure. -/
theorem findSome?_stop?_congr {ms ns : List (String × SourceFile)}
    (h : List.Forall₂ (Corresponds readers) ms ns) :
    ms.findSome? (stop? readers) = ns.findSome? (stop? readers) := by
  induction h with
  | nil => rfl
  | cons hmn _ ih => rw [List.findSome?_cons, List.findSome?_cons, hmn.stop?_eq, ih]

/-- Whether the manifests among some files declare the same as those among
others, in another order. -/
structure Reordered (readers : Manifest.Readers) (files files' : List SourceFile) : Prop where
  left : ∀ path file, Holds files path file → ∃ file', Holds files' path file' ∧
    Redeclares readers path file file'
  right : ∀ path file', Holds files' path file' → ∃ file, Holds files path file

/-- Files in another order. -/
theorem Reordered.of_perm {files files' : List SourceFile} (h : files.Perm files') :
    Reordered readers files files' where
  left := fun _ file ⟨hroot, hfile, hmanifest⟩ =>
    ⟨file, ⟨hroot, h.mem_iff.1 hfile, hmanifest⟩, .same rfl rfl⟩
  right := fun _ file ⟨hroot, hfile, hmanifest⟩ => ⟨file, hroot, h.mem_iff.2 hfile, hmanifest⟩

/-- Manifests that declare the same in another order are read side by side. -/
theorem Reordered.forall₂_inPathOrder {files files' : List SourceFile}
    (h : Reordered readers files files') (distinct : (files.map (·.path)).Nodup)
    (distinct' : (files'.map (·.path)).Nodup) :
    List.Forall₂ (Corresponds readers) (inPathOrder files) (inPathOrder files') := by
  refine forall₂_of_pairwise_key (r := (· < ·)) (fun _ _ => String.lt_asymm) Prod.fst
    (pairwise_inPathOrder distinct)
    (pairwise_inPathOrder distinct') (fun m hm => ?_) fun n hn => ?_
  · obtain ⟨file', hholds, hredeclares⟩ := h.left _ _ ((mem_inPathOrder distinct).1 hm)
    exact ⟨(m.1, file'), (mem_inPathOrder distinct').2 hholds, rfl, rfl, hredeclares⟩
  · obtain ⟨file, hholds⟩ := h.right _ _ ((mem_inPathOrder distinct').1 hn)
    exact ⟨(n.1, file), (mem_inPathOrder distinct).2 hholds, rfl⟩

/-- Whether groups of packages by ecosystem are arrangements of the same packages. -/
def SameArrangement : (ms ns : List (String × List String)) → Prop :=
  List.Forall₂ fun m n => m.1 = n.1 ∧ SameNames m.2 n.2

section Arrangement

variable {e e' : List String → List String} (he : Text.Enumerates e) (he' : Text.Enumerates e')
include he he'

theorem SameGroups.arrange {ms ns : List (String × List String)} (h : SameGroups ms ns) :
    SameArrangement (ms.map fun m => (m.1, arrangedBy e m.2)) (ns.map fun n =>
      (n.1, arrangedBy e' n.2)) := by
  rw [SameArrangement, List.forall₂_map_left_iff, List.forall₂_map_right_iff]
  exact h.imp fun _ _ hmn => ⟨hmn.1, sameNames_arrangedBy he he' hmn.2⟩

/-- **Declared dependencies in another order.** From files whose manifests declare the same in
another order the same packages are read for the same ecosystems, each once and in order without
regard to case, in the same places but for names that differ only in case; or both readings stop
with the same failure, at a manifest whose reader gives up. -/
theorem declared_of_reordered {files files' : List SourceFile}
    (distinct : (files.map (·.path)).Nodup) (distinct' : (files'.map (·.path)).Nodup)
    (h : Reordered readers files files') :
    (∃ d d', (ofFilesBy readers e files).outcome.value = .ok d ∧
        (ofFilesBy readers e' files').outcome.value = .ok d' ∧
        SameArrangement d.runtime d'.runtime ∧ SameArrangement d.development d'.development) ∨
      ∃ f, (∃ path file, Holds files path file ∧ StopsAt readers f path file) ∧
        (∃ path file, Holds files' path file ∧ StopsAt readers f path file) ∧
        (ofFilesBy readers e files).outcome.value = .error f ∧
        (ofFilesBy readers e' files').outcome.value = .error f := by
  have hpaired := h.forall₂_inPathOrder distinct distinct'
  have hstop := findSome?_stop?_congr hpaired
  have hsame := samePackages_foldl hpaired
  rw [value_ofFilesBy, value_ofFilesBy, hstop]
  cases hfound : (inPathOrder files').findSome? (stop? readers) with
  | none => exact .inl ⟨_, _, rfl, rfl, hsame.runtime.arrange he he',
      hsame.development.arrange he he'⟩
  | some f =>
    have hstops {gs : List SourceFile} (hnodup : (gs.map (·.path)).Nodup)
        (hsome : (inPathOrder gs).findSome? (stop? readers) = some f) :
        ∃ path file, Holds gs path file ∧ StopsAt readers f path file := by
      obtain ⟨m, hm, hf⟩ := List.exists_of_findSome?_eq_some hsome
      exact ⟨m.1, m.2, (mem_inPathOrder hnodup).1 hm, stop?_eq_some_iff.1 hf⟩
    exact .inr ⟨f, hstops distinct (hstop.trans hfound), hstops distinct' hfound, rfl, rfl⟩

end Arrangement

/-- A list of requirements. -/
def requirements (content : String) : SourceFile :=
  { path := "requirements.txt", content := some content }

/-- A project description. -/
def project (content : String) : SourceFile := { path := "pyproject.toml", content := some content }

/-- Requirements and a project description. -/
def someFiles : List SourceFile :=
  [requirements "Rich\nflask\n", project "[project]\ndependencies=['b','a']"]

/-- The same in another order. -/
def otherFiles : List SourceFile :=
  [project "[project]\ndependencies=['a','b']", requirements "flask\nRich\nflask\n"]

theorem read_project : Toml.read "[project]\ndependencies=['b','a']" =
    .ok (.table [("project", .table [("dependencies", .array [.text "b", .text "a"])])]) := by
  decide +kernel

theorem redeclares_project :
    Redeclares {} "pyproject.toml" (project "[project]\ndependencies=['b','a']")
      (project "[project]\ndependencies=['a','b']") := by
  have hread' : Toml.read "[project]\ndependencies=['a','b']" =
      .ok (.table [("project", .table [("dependencies", .array [.text "a", .text "b"])])]) := by
    decide +kernel
  refine .project read_project hread' ?_
  exact {
    dependencies := .arrays (.of_perm (List.Perm.swap ..))
    optional := .refl (fun _ => .same _) _
    groups := .refl (fun _ => .same _) _
    poetry := .refl _
    poetryDevelopment := .refl _
    poetryGroups := .refl (fun _ => .refl _) _ }

theorem redeclares_requirements :
    Redeclares {} "requirements.txt" (requirements "Rich\nflask\n")
      (requirements "flask\nRich\nflask\n") := by
  have hlines : Text.lines "Rich\nflask\n".toList = ["Rich".toList, "flask".toList] := by
    decide +kernel
  have hlines' : Text.lines "flask\nRich\nflask\n".toList =
      ["flask".toList, "Rich".toList, "flask".toList] := by
    decide +kernel
  refine .lines (by decide) fun l => ?_
  show l ∈ Text.lines "Rich\nflask\n".toList ↔ l ∈ Text.lines "flask\nRich\nflask\n".toList
  rw [hlines, hlines']
  simp only [List.mem_cons, List.not_mem_nil, or_false]
  tauto

theorem reordered_someFiles : Reordered {} someFiles otherFiles where
  left path file h := by
    obtain ⟨-, hfile, rfl, -⟩ := h
    rcases List.mem_pair.1 hfile with rfl | rfl
    · exact ⟨_, ⟨rfl, List.mem_cons_of_mem _ (List.mem_cons_self ..), rfl, rfl⟩,
        redeclares_requirements⟩
    · exact ⟨_, ⟨rfl, List.mem_cons_self .., rfl, rfl⟩, redeclares_project⟩
  right path file h := by
    obtain ⟨hroot, hfile, rfl, -⟩ := h
    rcases List.mem_pair.1 hfile with rfl | rfl
    · exact ⟨_, hroot, List.mem_cons_of_mem _ (List.mem_cons_self ..), rfl, rfl⟩
    · exact ⟨_, hroot, List.mem_cons_self .., rfl, rfl⟩

theorem declared_of_reordered_of_two :
    Text.Enumerates Text.sortedDistinct ∧ Text.Enumerates List.eraseDups ∧
      (someFiles.map (·.path)).Nodup ∧ (otherFiles.map (·.path)).Nodup ∧
      Reordered {} someFiles otherFiles ∧
      ∃ d d', (ofFilesBy {} Text.sortedDistinct someFiles).outcome.value = .ok d ∧
        (ofFilesBy {} List.eraseDups otherFiles).outcome.value = .ok d' ∧
        SameArrangement d.runtime d'.runtime ∧ SameArrangement d.development d'.development := by
  have hdistinct : (someFiles.map (·.path)).Nodup := by decide
  have hdistinct' : (otherFiles.map (·.path)).Nodup := by decide
  refine ⟨Text.enumerates_sortedDistinct, Text.enumerates_eraseDups, hdistinct, hdistinct',
    reordered_someFiles, ?_⟩
  rcases declared_of_reordered Text.enumerates_sortedDistinct Text.enumerates_eraseDups
      hdistinct hdistinct'
    reordered_someFiles with h | ⟨f, ⟨path, file, ⟨-, hfile, hpath, -⟩, hstops⟩, -⟩
  · exact h
  · -- Both manifests are read.
    rcases List.mem_pair.1 hfile with rfl | rfl
    · cases hstops <;> exact absurd hpath (by decide)
    · cases hstops with
      | projectNumeral h => cases h.symm.trans read_project
      | projectDepth h => cases h.symm.trans read_project
      | _ => exact absurd hpath (by decide)

/-- The order of equal paths shows, and so does that of names that differ only in case where a set
lists its members in the order of first mention. -/
theorem order_of_declarations_shows :
    (ofFiles [requirements "flask\n", requirements "rich\n"]).outcome.value =
      .ok ⟨[("python", ["rich"])], []⟩ ∧
      (ofFiles [requirements "rich\n", requirements "flask\n"]).outcome.value =
        .ok ⟨[("python", ["flask"])], []⟩ ∧
      Text.Enumerates List.eraseDups ∧
      (ofFilesBy {} List.eraseDups [requirements "Flask\nflask\n"]).outcome.value =
        .ok ⟨[("python", ["Flask", "flask"])], []⟩ ∧
      (ofFilesBy {} List.eraseDups [requirements "flask\nFlask\n"]).outcome.value =
        .ok ⟨[("python", ["flask", "Flask"])], []⟩ := by
  refine ⟨?_, ?_, Text.enumerates_eraseDups, ?_, ?_⟩
  · exact value_of_requirements (requirements "rich\n") (by decide +kernel)
      (by decide +kernel) (by decide)
      (Text.sortedDistinct_of_pairwise (List.pairwise_singleton ..)) (List.pairwise_singleton ..)
  · exact value_of_requirements (requirements "flask\n") (by decide +kernel)
      (by decide +kernel) (by decide)
      (Text.sortedDistinct_of_pairwise (List.pairwise_singleton ..)) (List.pairwise_singleton ..)
  · exact value_of_requirements (requirements "Flask\nflask\n") (by decide +kernel)
      (by decide +kernel) (by decide)
      (by decide +kernel) (by decide +kernel)
  · exact value_of_requirements (requirements "flask\nFlask\n") (by decide +kernel)
      (by decide +kernel) (by decide)
      (by decide +kernel) (by decide +kernel)

end Declared
end CodeSurvey
