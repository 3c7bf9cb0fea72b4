/-
# Specifiers that climb

A specifier that climbs from the directory of its importer and goes on with a normal path names that
path, seen from the directory that it climbs to (`Resolve.basePath_climb`). A path that the ladder
of this base holds and of which no earlier rung is known is what the specifier leads to
(`Resolve.resolve?_of_first`), whatever else is known. So every file can be imported from every file
(`Resolve.resolve?_specifierTo`), and of a relative import with dots each dot after the first climbs
one directory (`Resolve.resolve?_relativeSpecifier`).
-/

import CodeSurvey.Import
import CodeSurvey.Proofs.DependencyGraph.Ladder
import CodeSurvey.Proofs.Path.Normal

namespace CodeSurvey
namespace Resolve

open CodeSurvey.Path Text

/-- The rungs that a path gives before the first that is some other path. -/
def rungsBefore (path base : String) : List String := (rungs base).takeWhile (· != path)

/-- The specifier of a path from the root, seen from an importer. -/
def specifierTo (importer path : String) : String :=
  String.ofList (climb (parents importer.toList).length ++ path.toList)

/-- What a module with dots before it names: the names of the module, below the directory of the
importer for one dot and one directory above for each dot more. -/
def moduleBase (importer : String) (dots : Nat) (module : String) : String :=
  let above := parents importer.toList
  String.ofList (joinWith '/' (above.take (above.length - (dots - 1)) ++ fields '.' module.toList))

/-- Whether a text is the name of a module: names with dots between them. -/
def IsModuleName (module : String) : Prop :=
  ∀ name ∈ fields '.' module.toList, name ≠ [] ∧ '/' ∉ name

instance (module : String) : Decidable (IsModuleName module) :=
  inferInstanceAs (Decidable (∀ name ∈ _, _))

variable {specifier importer base path module : String} {known : List String} {p t : List Char}
  {levels dots : Nat}

theorem mem_rungsBefore {q : String} (h : q ∈ rungsBefore path base) :
    q ∈ rungs base ∧ q ≠ path := by
  refine ⟨(List.takeWhile_sublist _).subset h, ?_⟩
  exact bne_iff_ne.1 (List.mem_takeWhile_imp (p := fun q => q != path) h)

/-- The base of a specifier that climbs: the directories that are left, and the path
that it goes on with. -/
theorem basePath_climb (hp : IsNormal p) (ht : IsNormal t) (hlevels : levels ≤ (parents p).length) :
    basePath (climb levels ++ t) p =
      joinWith '/' ((parents p).take ((parents p).length - levels) ++ fields '/' t) := by
  have hclimb : (climb levels ++ t).head? ≠ some '/' := by
    rw [head?_climb_append]
    decide
  have hdirectory := directory_of_isNormal hp
  have hhead : (join (directory p) (climb levels ++ t)).head? ≠ some '/' := by
    by_cases hnil : directory p = []
    · rw [hnil, join_of_ne_slash hclimb]
      exact hclimb
    · rw [head?_join hclimb hnil, hdirectory]
      exact head?_joinWith_ne_slash fun s hs => ⟨(hp.of_mem_parents s hs).1.1,
        (hp.of_mem_parents s hs).2⟩
  have hnames : ∀ s ∈ (parents p).take ((parents p).length - levels) ++ fields '/' t, IsNamed s ∧
      '/' ∉ s := by
    intro s hs
    rcases List.mem_append.1 hs with hs | hs
    · exact hp.of_mem_parents s (List.mem_of_mem_take hs)
    · exact ⟨ht s hs, not_mem_of_mem_fields hs⟩
  refine (basePath_isResolutionOf _ _).unique (isResolutionOf_of_follow hhead hnames fun d => ?_)
  calc follow d (join (directory p) (climb levels ++ t))
      = follow (follow d (joinWith '/' (parents p))) (climb levels ++ t) := by
        rw [follow_join, hdirectory]
    _ = follow (d ++ parents p) (climb levels ++ t) := by rw [follow_joinWith hp.of_mem_parents]
    _ = (d ++ parents p).take ((d ++ parents p).length - levels) ++ fields '/' t :=
      follow_climb ht _ levels
    _ = d ++ (parents p).take ((parents p).length - levels) ++ fields '/' t := by
      have hlength : (d ++ parents p).length - levels = d.length +
          ((parents p).length - levels) := by
        rw [List.length_append]
        omega
      rw [hlength, List.take_length_add_append]
    _ = d ++ ((parents p).take ((parents p).length - levels) ++ fields '/' t) :=
      List.append_assoc ..

/-- A specifier that climbs names a file. -/
theorem isRelative_climb (levels : Nat) (t : List Char) :
    isRelative (String.ofList (climb levels ++ t)) = true := by
  rw [isRelative, String.toList_ofList]
  cases levels with
  | zero => simp [climb]
  | succ n => simp [climb, List.replicate_succ]

/-- **The first known rung** is what a specifier leads to. -/
theorem resolve?_of_first (hbase : basePath specifier.toList importer.toList = base.toList)
    (hrung : path ∈ rungs base) (hknown : path ∈ known)
    (hfirst : ∀ q ∈ rungsBefore path base, q ∉ known) :
    resolve? specifier importer known = some path := by
  obtain ⟨before, after, hrungs, hbefore⟩ := List.eq_append_cons_of_mem hrung
  have hother : ∀ q ∈ before, (q != path) = true := by
    intro q hq
    rw [bne_iff_ne]
    rintro rfl
    exact hbefore hq
  have hsame : rungsBefore path base = before := by
    rw [rungsBefore, hrungs, List.takeWhile_append_of_pos hother]
    simp
  have hresolution := resolution_resolve? specifier importer known
  rw [hbase, String.ofList_toList] at hresolution
  exact hresolution.unique (.rung before after path hrungs hknown (hsame ▸ hfirst))

theorem ne_empty_of_isNormal (h : IsNormal base.toList) : base ≠ "" := by
  rintro rfl
  exact absurd h (by decide +kernel)

/-- The rungs of a path that is not the root: what names a file by itself, and
then the index files. -/
theorem rungs_of_ne_empty (h : base ≠ "") :
    rungs base = (fileCandidates base.toList).map String.ofList ++
      indexFiles.map (base ++ "/" ++ ·) := by
  have hne : base.toList ≠ [] := mt String.toList_eq_nil_iff.1 h
  have hcandidates := map_candidates base.toList
  rw [candidates, if_neg (by simpa using hne), List.map_append, map_indexCandidates, if_neg hne,
    String.ofList_toList]
    at hcandidates
  exact hcandidates.symm

theorem mem_rungs_self (h : base ≠ "") : base ∈ rungs base := by
  rw [rungs_of_ne_empty h, map_fileCandidates, String.ofList_toList]
  simp

theorem append_mem_rungs (h : base ≠ "") {e : String} (he : e ∈ extensions) :
    base ++ e ∈ rungs base := by
  rw [rungs_of_ne_empty h, map_fileCandidates, String.ofList_toList]
  exact List.mem_append_left _ (List.mem_append_right _ (List.mem_map_of_mem he))

theorem index_mem_rungs (h : base ≠ "") {f : String} (hf : f ∈ indexFiles) :
    base ++ "/" ++ f ∈ rungs base := by
  rw [rungs_of_ne_empty h]
  exact List.mem_append_right _ (List.mem_map_of_mem hf)

/-- A specifier from an importer to a path from the root names that path. -/
theorem basePath_specifierTo (himporter : IsNormal importer.toList) (hpath : IsNormal path.toList) :
    basePath (specifierTo importer path).toList importer.toList = path.toList := by
  rw [specifierTo, String.toList_ofList, basePath_climb himporter hpath (Nat.le_refl _),
    Nat.sub_self, List.take_zero, List.nil_append, joinWith_fields]

/-- **Every file can be imported from every file.** The specifier that climbs from the importer to
the root and goes on with the path of a known file leads to this file; without one of the extensions
that the ladder tries it still does, unless a rung before it is known. -/
theorem resolve?_specifierTo {target : String} (himporter : IsNormal importer.toList)
    (htarget : IsNormal target.toList) (hknown : target ∈ known) :
    isRelative (specifierTo importer target) = true ∧
      resolve? (specifierTo importer target) importer known = some target ∧
      ∀ stem : String, ∀ e ∈ extensions, target = stem ++ e → IsNormal stem.toList →
        (∀ q ∈ rungsBefore target stem, q ∉ known) →
          isRelative (specifierTo importer stem) = true ∧
            resolve? (specifierTo importer stem) importer known = some target := by
  have hself : ∀ q ∈ rungsBefore target target, q ∉ known := by
    have hnone : rungsBefore target target = [] := by
      rw [rungsBefore, rungs, if_neg (ne_empty_of_isNormal htarget)]
      simp
    rw [hnone]
    exact fun q hq => absurd hq List.not_mem_nil
  refine ⟨isRelative_climb .., ?_, ?_⟩
  · exact resolve?_of_first (basePath_specifierTo himporter htarget)
      (mem_rungs_self (ne_empty_of_isNormal htarget)) hknown
      hself
  · rintro stem e he rfl hstem hfirst
    refine ⟨isRelative_climb .., ?_⟩
    exact resolve?_of_first (basePath_specifierTo himporter hstem)
      (append_mem_rungs (ne_empty_of_isNormal hstem) he) hknown
      hfirst

/-- From a file below directories with blanks and repeated names there is a specifier of a file with
dots in its name, with and without its extension, although files with the same ending are known. -/
theorem resolve?_specifierTo_of_repeated_names :
    let importer := "src/my app/src/a.b.ts"
    let known := ["src.v2.ts", "src/my app/a.b/src.v2.ts", "a.b/src.v2.ts", "a.b/src.v2.js.ts",
      "a.b/src.v2.json"]
    IsNormal importer.toList ∧ IsNormal "a.b/src.v2.ts".toList ∧ "a.b/src.v2.ts" ∈ known ∧
      ".ts" ∈ extensions ∧ "a.b/src.v2.ts" = "a.b/src.v2" ++ ".ts" ∧ IsNormal "a.b/src.v2".toList ∧
      (∀ q ∈ rungsBefore "a.b/src.v2.ts" "a.b/src.v2", q ∉ known) ∧
      resolve? "../../../a.b/src.v2.ts" importer known = some "a.b/src.v2.ts" ∧
      resolve? "../../../a.b/src.v2" importer known = some "a.b/src.v2.ts" := by
  intro importer known
  have himporter : IsNormal importer.toList := by decide +kernel
  have htarget : IsNormal "a.b/src.v2.ts".toList := by decide +kernel
  have hstem : IsNormal "a.b/src.v2".toList := by decide +kernel
  have hknown : "a.b/src.v2.ts" ∈ known := by decide +kernel
  have hextension : ".ts" ∈ extensions := by decide +kernel
  have hsplit : "a.b/src.v2.ts" = "a.b/src.v2" ++ ".ts" := by decide +kernel
  have hfirst : ∀ q ∈ rungsBefore "a.b/src.v2.ts" "a.b/src.v2", q ∉ known := by decide +kernel
  have hspecifier : specifierTo importer "a.b/src.v2.ts" = "../../../a.b/src.v2.ts" := by
    decide +kernel
  have hshort : specifierTo importer "a.b/src.v2" = "../../../a.b/src.v2" := by decide +kernel
  obtain ⟨-, hleads, hstems⟩ := resolve?_specifierTo himporter htarget hknown
  rw [hspecifier] at hleads
  obtain ⟨-, hshortLeads⟩ := hstems "a.b/src.v2" ".ts" hextension hsplit hstem hfirst
  rw [hshort] at hshortLeads
  exact ⟨himporter, htarget, hknown, hextension, hsplit, hstem, hfirst, hleads, hshortLeads⟩

/-- What a relative import names, as a way up and a path after it. -/
theorem relativeSpecifier_eq (hdots : 1 ≤ dots) (module : List Char) :
    relativeSpecifier dots module = climb (dots - 1) ++ joinWith '/' (fields '.' module) := by
  rw [relativeSpecifier, ← joinWith_fields_of_other]
  congr 1
  by_cases hone : dots = 1
  · subst hone
    rfl
  · have hlevels : ((dots : Int) - 1).toNat = dots - 1 := by omega
    rw [if_neg (by omega), climb, if_neg (by omega), hlevels]

/-- The base of a relative import is the path of the module, as many directories up as there are
dots after the first. -/
theorem basePath_relativeSpecifier (himporter : IsNormal importer.toList) (hdots : 1 ≤ dots)
    (hlevels : dots ≤ (parents importer.toList).length + 1) (hmodule : IsModuleName module) :
    basePath (relativeSpecifier dots module.toList) importer.toList =
      (moduleBase importer dots module).toList ∧
      IsNormal (moduleBase importer dots module).toList := by
  have hnames : ∀ name ∈ fields '.' module.toList, IsNamed name ∧ '/' ∉ name := by
    intro name hname
    have hdot : '.' ∉ name := not_mem_of_mem_fields hname
    refine ⟨⟨(hmodule name hname).1, ?_, ?_⟩, (hmodule name hname).2⟩
    · rintro rfl
      exact hdot (List.mem_cons_self ..)
    · rintro rfl
      exact hdot (List.mem_cons_self ..)
  have hne : fields '.' module.toList ≠ [] := fieldsBy_ne_nil _ _
  have hfields : fields '/' (joinWith '/' (fields '.' module.toList)) = fields '.' module.toList :=
    fields_joinWith hne fun name hname => (hnames name hname).2
  constructor
  · rw [relativeSpecifier_eq hdots,
      basePath_climb himporter (isNormal_joinWith hne hnames) (by omega), hfields, moduleBase,
      String.toList_ofList]
  · rw [moduleBase, String.toList_ofList]
    refine isNormal_joinWith (List.append_ne_nil_of_right_ne_nil _ hne) fun s hs => ?_
    rcases List.mem_append.1 hs with hs | hs
    · exact himporter.of_mem_parents s (List.mem_of_mem_take hs)
    · exact hnames s hs

/-- **The dots of a relative import climb** one directory less than there are. From an importer with
enough directories above it the import leads to the module file where that is known and no rung
before it, and to the package file where that is known and neither a file that the module names by
itself nor another index file is. -/
theorem resolve?_relativeSpecifier (himporter : IsNormal importer.toList) (hdots : 1 ≤ dots)
    (hlevels : dots ≤ (parents importer.toList).length + 1) (hmodule : IsModuleName module)
    (known : List String) :
    let specifier := String.ofList (relativeSpecifier dots module.toList)
    let base := moduleBase importer dots module
    isRelative specifier = true ∧
      (base ++ ".py" ∈ known → (∀ q ∈ rungsBefore (base ++ ".py") base, q ∉ known) →
        resolve? specifier importer known = some (base ++ ".py")) ∧
      (base ++ "/" ++ "__init__.py" ∈ known →
        (∀ q ∈ fileCandidates base.toList, String.ofList q ∉ known) →
        (∀ f ∈ indexFiles, f ≠ "__init__.py" → base ++ "/" ++ f ∉ known) →
          resolve? specifier importer known = some (base ++ "/" ++ "__init__.py")) := by
  intro specifier base
  obtain ⟨hbase, hnormal⟩ := basePath_relativeSpecifier himporter hdots hlevels hmodule
  have hne : base ≠ "" := ne_empty_of_isNormal hnormal
  have hnames : basePath specifier.toList importer.toList = base.toList := by
    rw [String.toList_ofList, hbase]
  refine ⟨?_, fun hknown hfirst => ?_, fun hknown hfiles hindex => ?_⟩
  · have hclimb : specifier =
        String.ofList (climb (dots - 1) ++ joinWith '/' (fields '.' module.toList)) :=
      congrArg String.ofList (relativeSpecifier_eq hdots _)
    rw [hclimb]
    exact isRelative_climb ..
  · exact resolve?_of_first hnames (append_mem_rungs hne (by decide)) hknown hfirst
  · refine resolve?_of_first hnames (index_mem_rungs hne (by decide)) hknown fun q hq => ?_
    obtain ⟨hrung, hother⟩ := mem_rungsBefore hq
    rw [rungs_of_ne_empty hne] at hrung
    rcases List.mem_append.1 hrung with hfile | hfile
    · obtain ⟨cs, hcs, rfl⟩ := List.mem_map.1 hfile
      exact hfiles cs hcs
    · obtain ⟨f, hf, rfl⟩ := List.mem_map.1 hfile
      exact hindex f hf fun heq => hother (by rw [heq])

/-- Two dots lead from a file of a package to a module beside the package, and to the
package file of another one. -/
theorem resolve?_relativeSpecifier_of_two_dots :
    let importer := "app/core/views.py"
    let known := ["app/data/models.py", "core/data/models.py", "app/core/data/models.py",
      "app/data/models/__init__.py", "app/forms/__init__.py", "forms.py"]
    IsNormal importer.toList ∧ 1 ≤ 2 ∧ 2 ≤ (parents importer.toList).length + 1 ∧
      IsModuleName "data.models" ∧ IsModuleName "forms" ∧
      (∀ q ∈ rungsBefore "app/data/models.py" "app/data/models", q ∉ known) ∧
      (∀ q ∈ fileCandidates "app/forms".toList, String.ofList q ∉ known) ∧
      (∀ f ∈ indexFiles, f ≠ "__init__.py" → "app/forms/" ++ f ∉ known) ∧
      resolve? "../data/models" importer known = some "app/data/models.py" ∧
      resolve? "../forms" importer known = some "app/forms/__init__.py" := by
  intro importer known
  have himporter : IsNormal importer.toList := by decide +kernel
  have hlevels : 2 ≤ (parents importer.toList).length + 1 := by decide +kernel
  have hmodule : IsModuleName "data.models" := by decide +kernel
  have hpackage : IsModuleName "forms" := by decide +kernel
  have hbase : moduleBase importer 2 "data.models" = "app/data/models" := by decide +kernel
  have hother : moduleBase importer 2 "forms" = "app/forms" := by decide +kernel
  have hfirst : ∀ q ∈ rungsBefore "app/data/models.py" "app/data/models", q ∉ known := by
    decide +kernel
  have hfiles : ∀ q ∈ fileCandidates "app/forms".toList, String.ofList q ∉ known := by
    decide +kernel
  have hindex : ∀ f ∈ indexFiles, f ≠ "__init__.py" → "app/forms/" ++ f ∉ known := by decide +kernel
  obtain ⟨-, hleads, -⟩ := resolve?_relativeSpecifier himporter (by decide) hlevels hmodule known
  obtain ⟨-, -, hpackages⟩ :=
    resolve?_relativeSpecifier himporter (by decide) hlevels hpackage known
  rw [hbase] at hleads
  rw [hother] at hpackages
  exact ⟨himporter, by decide, hlevels, hmodule, hpackage, hfirst, hfiles, hindex,
    hleads (by decide +kernel) hfirst, hpackages (by decide +kernel) hfiles hindex⟩

end Resolve
end CodeSurvey
