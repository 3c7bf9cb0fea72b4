/-
# What a walk over a checkout lists

A walk goes down from directory to directory, and past none that is left out. So it lists a file
exactly if the file is not left out and no directory on the way to it is (`Tree.mem_visible_iff`).
The path of a file in a checkout tells the way to it (`Tree.pathOf_injective`), as no name is empty
or holds a slash; hence two files are not taken for each other (`Tree.mem_visible_iff_of_fileAt`),
and where no directory on the way and not the file itself has a name that is left out anyway, the
rules alone decide (`Tree.mem_visible_iff_of_rules`).
-/

import CodeSurvey.Checkout.Tree
import CodeSurvey.Proofs.Text

namespace CodeSurvey
namespace Tree

/-- Whether a file with some bytes lies among entries at the end of a way down, which
the names on it give. -/
inductive FileAt (bytes : List UInt8) : List Tree → List String → Prop
  | here {es : List Tree} {n : String} (h : file n bytes ∈ es) : FileAt bytes es [n]
  | inner {es sub : List Tree} {n : String} {names : List String} (h : directory n sub ∈ es)
      (hrest : FileAt bytes sub names) : FileAt bytes es (n :: names)

/-- Whether all names of entries from which a way leads down to a file are such
as a file system has. -/
def HasPlainNames (es : List Tree) : Prop :=
  ∀ bytes names, FileAt bytes es names → ∀ n ∈ names, n ≠ "" ∧ '/' ∉ n.toList

/-- Whether a walk that has come to a directory goes on to the end of a way down. -/
def Passes (rules : List IgnoreRule) : (dir : String) → List String → Prop
  | _, [] => False
  | dir, [n] => isStray rules dir n = false
  | dir, n :: m :: names => isClosed rules dir n = false ∧ Passes rules (pathIn dir n) (m :: names)

/-- The path at the end of a way down. -/
def pathOf (names : List String) : String := names.foldl pathIn ""

/-- Whether rules leave out the file at the end of a way down from a directory, or a
directory on the way. -/
def LeavesOut (rules : List IgnoreRule) (dir : String) (names : List String) : Prop :=
  IgnoreRule.ignores rules (names.foldl pathIn dir) false = true ∨
    ∃ above rest, above ≠ [] ∧ rest ≠ [] ∧ names = above ++ rest ∧
      IgnoreRule.ignores rules (above.foldl pathIn dir) true = true

variable {rules : List IgnoreRule} {dir n path : String} {names names' : List String}
  {es : List Tree} {t : Tree}
  {bytes : List UInt8}

theorem FileAt.ne_nil (h : FileAt bytes es names) : names ≠ [] := by
  rintro rfl
  cases h

/-- Names are plain if those of the entries are, and those below them. -/
theorem hasPlainNames_of_entries
    (h : ∀ t ∈ es, (t.name ≠ "" ∧ '/' ∉ t.name.toList) ∧ HasPlainNames t.entries) :
    HasPlainNames es := by
  intro bytes names hfile n hn
  cases hfile with
  | here hmem =>
    obtain rfl := List.mem_singleton.1 hn
    exact (h _ hmem).1
  | inner hmem hrest =>
    rcases List.mem_cons.1 hn with rfl | hn
    · exact (h _ hmem).1
    · exact (h _ hmem).2 bytes _ hrest n hn

theorem passes_cons (hne : names ≠ []) :
    Passes rules dir (n :: names) ↔ isClosed rules dir n = false ∧
      Passes rules (pathIn dir n) names := by
  obtain ⟨m, ms, rfl⟩ := List.exists_cons_of_ne_nil hne
  rfl

/-- The file that an entry is, with its name, unless it is left out. -/
def keptFile? (rules : List IgnoreRule) (dir : String) : Tree → Option (String × List UInt8)
  | file n bytes => if isStray rules dir n then none else some (n, bytes)
  | directory _ _ => none

theorem ownFiles_eq (rules : List IgnoreRule) (dir : String) (es : List Tree) :
    ownFiles rules dir es = (byName (es.filterMap (keptFile? rules dir))).map fun f =>
      (pathIn dir f.1, f.2) := rfl

theorem keptFile?_eq_some_iff :
    keptFile? rules dir t = some (n, bytes) ↔ t = file n bytes ∧ isStray rules dir n = false := by
  cases t with
  | directory k sub => exact ⟨nofun, fun ⟨heq, _⟩ => nomatch heq⟩
  | file k bs =>
    rw [keptFile?, file.injEq]
    split
    · rename_i hstray
      refine ⟨nofun, ?_⟩
      rintro ⟨⟨rfl, -⟩, hkept⟩
      exact absurd hstray (Bool.eq_false_iff.1 hkept)
    · rename_i hkept
      rw [Option.some.injEq, Prod.mk.injEq]
      constructor
      · rintro ⟨rfl, rfl⟩
        exact ⟨⟨rfl, rfl⟩, Bool.eq_false_iff.2 hkept⟩
      · exact And.left

theorem mem_ownFiles : (path, bytes) ∈ ownFiles rules dir es ↔
    ∃ n, file n bytes ∈ es ∧ isStray rules dir n = false ∧ path = pathIn dir n := by
  simp only [ownFiles_eq, byName, List.mem_map, List.mem_mergeSort, List.mem_filterMap, Prod.exists,
    Prod.mk.injEq, keptFile?_eq_some_iff]
  constructor
  · rintro ⟨n, bytes, ⟨t, ht, rfl, hkept⟩, rfl, rfl⟩
    exact ⟨n, ht, hkept, rfl⟩
  · rintro ⟨n, ht, hkept, rfl⟩
    exact ⟨n, bytes, ⟨_, ht, rfl, hkept⟩, rfl, rfl⟩

theorem visibleBelowAll_eq_flatMap (es : List Tree) :
    visibleBelowAll rules dir es = es.flatMap (visibleBelow rules dir) := by
  induction es with
  | nil => rfl
  | cons t ts ih => rw [visibleBelowAll, ih, List.flatMap_cons]

/-- The files that a walk lists from a directory on. -/
def listed (rules : List IgnoreRule) (dir : String) (es : List Tree) : List (String × List UInt8) :=
  ownFiles rules dir es ++ (byName (visibleBelowAll rules dir es)).flatMap Prod.snd

/-- What a walk lists below a directory that is not left out. -/
theorem visibleBelow_of_open (h : isClosed rules dir n = false) (sub : List Tree) :
    visibleBelow rules dir (directory n sub) = [(n, listed rules (pathIn dir n) sub)] := by
  rw [visibleBelow, if_neg (Bool.eq_false_iff.1 h)]
  rfl

theorem mem_visibleBelow {below : List (String × List UInt8)} :
    (n, below) ∈ visibleBelow rules dir t ↔
      ∃ sub, t = directory n sub ∧ isClosed rules dir n = false ∧
        below = listed rules (pathIn dir n) sub := by
  constructor
  · intro hmem
    cases t with
    | file k bs => cases hmem
    | directory k sub =>
      cases hclosed : isClosed rules dir k with
      | true =>
        rw [visibleBelow, if_pos hclosed] at hmem
        cases hmem
      | false =>
        rw [visibleBelow_of_open hclosed, List.mem_singleton] at hmem
        obtain ⟨rfl, rfl⟩ := Prod.mk.inj hmem
        exact ⟨sub, rfl, hclosed, rfl⟩
  · rintro ⟨sub, rfl, hopen, rfl⟩
    exact visibleBelow_of_open hopen sub ▸ List.mem_singleton_self _

/-- What a walk lists below a directory stands under the names of the directories in it
that are not left out. -/
theorem mem_visibleBelowAll {below : List (String × List UInt8)} :
    (n, below) ∈ visibleBelowAll rules dir es ↔
      ∃ sub, directory n sub ∈ es ∧ isClosed rules dir n = false ∧
        below = listed rules (pathIn dir n) sub := by
  simp only [visibleBelowAll_eq_flatMap, List.mem_flatMap, mem_visibleBelow]
  constructor
  · rintro ⟨-, ht, sub, rfl, hopen, hbelow⟩
    exact ⟨sub, ht, hopen, hbelow⟩
  · rintro ⟨sub, ht, hopen, hbelow⟩
    exact ⟨_, ht, sub, rfl, hopen, hbelow⟩

/-- What is listed lies in the directory, or is listed from one in it that is not left out. -/
theorem mem_listed : (path, bytes) ∈ listed rules dir es ↔
    (∃ n, file n bytes ∈ es ∧ isStray rules dir n = false ∧ path = pathIn dir n) ∨
      ∃ n sub, directory n sub ∈ es ∧ isClosed rules dir n = false ∧
        (path, bytes) ∈ listed rules (pathIn dir n) sub := by
  rw [listed, List.mem_append, mem_ownFiles]
  refine or_congr Iff.rfl ?_
  simp only [byName, List.mem_flatMap, List.mem_mergeSort, Prod.exists, mem_visibleBelowAll]
  constructor
  · rintro ⟨n, -, ⟨sub, hsub, hopen, rfl⟩, hmem⟩
    exact ⟨n, sub, hsub, hopen, hmem⟩
  · rintro ⟨n, sub, hsub, hopen, hmem⟩
    exact ⟨n, _, ⟨sub, hsub, hopen, rfl⟩, hmem⟩

/-- Along a way down that the walk goes, the file is listed. -/
theorem FileAt.mem_listed (h : FileAt bytes es names) (hpasses : Passes rules dir names) :
    (names.foldl pathIn dir, bytes) ∈ listed rules dir es := by
  induction h generalizing dir with
  | here h => exact Tree.mem_listed.2 (.inl ⟨_, h, hpasses, rfl⟩)
  | inner h hrest ih =>
    obtain ⟨hopen, hpasses⟩ := (passes_cons hrest.ne_nil).1 hpasses
    exact Tree.mem_listed.2 (.inr ⟨_, _, h, hopen, ih hpasses⟩)

/-- A file that is listed is one at the end of a way down that the walk goes. -/
theorem exists_fileAt_of_mem_listed (es : List Tree) (dir : String)
    (h : (path, bytes) ∈ listed rules dir es) :
    ∃ names, FileAt bytes es names ∧ Passes rules dir names ∧ path = names.foldl pathIn dir := by
  rcases mem_listed.1 h with ⟨n, hfile, hstray, rfl⟩ | ⟨n, sub, hsub, hopen, hinner⟩
  · exact ⟨[n], .here hfile, hstray, rfl⟩
  · obtain ⟨names, hnames, hpasses, hpath⟩ := exists_fileAt_of_mem_listed sub (pathIn dir n) hinner
    exact ⟨n :: names, .inner hsub hnames, (passes_cons hnames.ne_nil).2 ⟨hopen, hpasses⟩, hpath⟩
termination_by sizeOf es
decreasing_by
  have hlt := List.sizeOf_lt_of_mem hsub
  simp only [directory.sizeOf_spec] at hlt
  omega

/-- **A walk lists the files at the ends of the ways that it goes**, under their paths. -/
theorem mem_visible_iff :
    (path, bytes) ∈ visible rules es ↔ ∃ names, FileAt bytes es names ∧ Passes rules "" names ∧
      path = pathOf names := by
  constructor
  · exact exists_fileAt_of_mem_listed es ""
  · rintro ⟨names, hfile, hpasses, rfl⟩
    exact hfile.mem_listed hpasses

theorem toList_pathIn (h : dir ≠ "") (n : String) :
    (pathIn dir n).toList = dir.toList ++ '/' :: n.toList := by
  rw [pathIn, if_neg (by simpa using h), String.toList_append, String.toList_append,
    List.append_assoc]
  rfl

theorem suffix_pathIn (dir n : String) : n.toList <:+ (pathIn dir n).toList := by
  by_cases h : dir = ""
  · subst h
    exact List.suffix_refl _
  · rw [toList_pathIn h]
    exact (List.suffix_cons '/' n.toList).trans (List.suffix_append ..)

theorem prefix_pathIn (dir n : String) : dir.toList <+: (pathIn dir n).toList := by
  by_cases h : dir = ""
  · subst h
    exact List.nil_prefix
  · rw [toList_pathIn h]
    exact List.prefix_append ..

theorem pathOf_concat (names : List String) (n : String) :
    pathOf (names ++ [n]) = pathIn (pathOf names) n :=
  List.foldl_concat ..

/-- The path at the end of a part of a way down is a start of that at its end. -/
theorem prefix_pathOf {pre : List String} (h : pre <+: names) :
    (pathOf pre).toList <+: (pathOf names).toList := by
  obtain ⟨rest, rfl⟩ := h
  induction rest using List.reverseRecOn with
  | nil => simp
  | append_singleton ms n ih =>
    rw [← List.append_assoc, pathOf_concat]
    exact ih.trans (prefix_pathIn _ n)

/-- The path at the end of a way down is its names with slashes between them. -/
theorem toList_pathOf (h : ∀ n ∈ names, n ≠ "") :
    (pathOf names).toList = Path.joinWith '/' (names.map String.toList) := by
  induction names using List.reverseRecOn with
  | nil => rfl
  | append_singleton ms n ih =>
    rw [pathOf_concat, List.map_append, List.map_singleton]
    have hms := ih fun m hm => h m (List.mem_append_left _ hm)
    by_cases hnil : ms = []
    · subst hnil
      rfl
    · have hmapped : ms.map String.toList ≠ [] := by simpa using hnil
      rw [Path.joinWith_append hmapped (List.cons_ne_nil _ _), ← hms]
      refine toList_pathIn (fun hempty => ?_) n
      refine Path.joinWith_ne_nil hmapped ?_ (hms.symm.trans (congrArg String.toList hempty))
      intro x hx
      obtain ⟨m, hm, rfl⟩ := List.mem_map.1 hx
      exact mt String.toList_eq_nil_iff.1 (h m (List.mem_append_left _ hm))

/-- The names on a way down are the fields of the path at its end. -/
theorem fieldsOf_pathOf (hne : names ≠ []) (h : ∀ n ∈ names, n ≠ "" ∧ '/' ∉ n.toList) :
    Text.fieldsOf '/' (pathOf names) = names := by
  have hslash : ∀ x ∈ names.map String.toList, '/' ∉ x := by
    intro x hx
    obtain ⟨n, hn, rfl⟩ := List.mem_map.1 hx
    exact (h n hn).2
  rw [Text.fieldsOf, toList_pathOf fun n hn => (h n hn).1,
    Text.fields_joinWith (by simpa using hne) hslash, List.map_map]
  exact (List.map_congr_left fun n _ => String.ofList_toList).trans (List.map_id _)

/-- The path at the end of a way down ends with the last name on it, and so with no slash. -/
theorem getLast?_pathOf (hne : names ≠ []) (h : ∀ n ∈ names, n ≠ "" ∧ '/' ∉ n.toList) :
    ∃ c, (pathOf names).toList.getLast? = some c ∧ c ≠ '/' := by
  obtain ⟨ms, n, rfl⟩ := (List.eq_nil_or_concat' names).resolve_left hne
  obtain ⟨hn, hslash⟩ := h n (by simp)
  have hsuffix := suffix_pathIn (pathOf ms) n
  obtain ⟨cs, c, hcs⟩ :=
    (List.eq_nil_or_concat' n.toList).resolve_left (mt String.toList_eq_nil_iff.1 hn)
  obtain ⟨dir, hdir⟩ := hsuffix
  refine ⟨c, ?_, ?_⟩
  · rw [pathOf_concat, ← hdir, hcs, ← List.append_assoc, List.getLast?_concat]
  · rintro rfl
    exact hslash (by simp [hcs])

/-- A path tells the way to it. -/
theorem pathOf_injective (hne : names ≠ []) (hne' : names' ≠ [])
    (h : ∀ n ∈ names, n ≠ "" ∧ '/' ∉ n.toList) (h' : ∀ n ∈ names', n ≠ "" ∧ '/' ∉ n.toList)
    (heq : pathOf names = pathOf names') : names = names' := by
  rw [← fieldsOf_pathOf hne h, ← fieldsOf_pathOf hne' h', heq]

/-- Whether a file is listed depends on the way to it. -/
theorem mem_visible_iff_of_fileAt (hplain : HasPlainNames es) (h : FileAt bytes es names) :
    (pathOf names, bytes) ∈ visible rules es ↔ Passes rules "" names := by
  rw [mem_visible_iff]
  constructor
  · rintro ⟨names', h', hpasses, heq⟩
    obtain rfl := pathOf_injective h.ne_nil h'.ne_nil (hplain _ _ h) (hplain _ _ h') heq
    exact hpasses
  · exact fun hpasses => ⟨names, h, hpasses, rfl⟩

theorem leavesOut_singleton :
    LeavesOut rules dir [n] ↔ IgnoreRule.ignores rules (pathIn dir n) false = true := by
  refine or_iff_left ?_
  rintro ⟨above, rest, habove, hrest, heq, -⟩
  have hlength := congrArg List.length heq
  rw [List.length_append, List.length_singleton] at hlength
  have hpos := List.length_pos_iff.2 habove
  have hpos' := List.length_pos_iff.2 hrest
  omega

theorem leavesOut_cons (hne : names ≠ []) :
    LeavesOut rules dir (n :: names) ↔
      IgnoreRule.ignores rules (pathIn dir n) true = true ∨
        LeavesOut rules (pathIn dir n) names := by
  constructor
  · rintro (hfile | ⟨above, rest, habove, hrest, heq, hdir⟩)
    · exact .inr (.inl hfile)
    · obtain ⟨m, above, rfl⟩ := List.exists_cons_of_ne_nil habove
      obtain ⟨rfl, rfl⟩ := List.cons.inj heq
      by_cases hnil : above = []
      · subst hnil
        exact .inl hdir
      · exact .inr (.inr ⟨above, rest, hnil, hrest, rfl, hdir⟩)
  · rintro (hdir | hfile | ⟨above, rest, -, hrest, rfl, hdir⟩)
    · exact .inr ⟨[n], names, List.cons_ne_nil _ _, hne, rfl, hdir⟩
    · exact .inl hfile
    · exact .inr ⟨n :: above, rest, List.cons_ne_nil _ _, hrest, rfl, hdir⟩

/-- Where no name is left out by itself, a walk goes the ways of which the
rules leave out nothing. -/
theorem passes_iff (hne : names ≠ [])
    (hdirs : ∀ n ∈ names.dropLast, n ∉ Classification.standard.excludedDirectories)
    (hname : ∀ n ∈ names.getLast?, n ∉ strayNames) :
    Passes rules dir names ↔ ¬ LeavesOut rules dir names := by
  induction names generalizing dir with
  | nil => exact absurd rfl hne
  | cons n ns ih =>
    by_cases hnil : ns = []
    · subst hnil
      have hstray : strayNames.contains n = false := by simpa using hname n rfl
      rw [leavesOut_singleton, Passes, isStray, hstray, Bool.false_or, Bool.not_eq_true]
    · rw [List.dropLast_cons_of_ne_nil hnil, List.forall_mem_cons] at hdirs
      rw [List.getLast?_cons_of_ne_nil hnil] at hname
      have hclosed : Classification.standard.excludedDirectories.contains n = false := by
        simpa using hdirs.1
      rw [passes_cons hnil, leavesOut_cons hnil, ih hnil hdirs.2 hname, isClosed, hclosed,
        Bool.false_or, not_or, Bool.not_eq_true]

/-- **What rules leave out of a walk.** A file that lies where no name is left out by itself is
listed exactly if the rules leave out neither it nor a directory above it. -/
theorem mem_visible_iff_of_rules (hplain : HasPlainNames es) (h : FileAt bytes es names)
    (hdirs : ∀ n ∈ names.dropLast, n ∉ Classification.standard.excludedDirectories)
    (hname : ∀ n ∈ names.getLast?, n ∉ strayNames) :
    (pathOf names, bytes) ∈ visible rules es ↔ ¬ LeavesOut rules "" names := by
  rw [mem_visible_iff_of_fileAt hplain h, passes_iff h.ne_nil hdirs hname]

end Tree
end CodeSurvey
