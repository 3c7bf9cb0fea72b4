/-
# The listing of a walk

Of several rules that match a path the last one decides (`IgnoreRule.ignores_eq_false_iff`). So a
walk lists a file exactly if its name is not left out, the last rule that matches its path takes it
in, and the same holds of each directory above it, with the names left out there
(`Tree.passes_iff_isShown`).

The listing is in order: where the ways to two files part, the files of the directory come
first, by name, and then what lies in the directories in it, by name too
(`Tree.pairwise_listed`). No file comes before itself in this order, so none is listed twice.
`Tree.visible_exact` draws this together.
-/

import CodeSurvey.Proofs.Checkout.Walk
import CodeSurvey.Proofs.Sorting

namespace CodeSurvey
namespace IgnoreRule

variable {rules : List IgnoreRule} {path : String} {d : Bool}

/-- Whether the last rule that matches a path takes it in, if there is one. -/
def Spares (rules : List IgnoreRule) (path : String) (isDirectory : Bool) : Prop :=
  ∀ r ∈ (rules.filter (·.isMatch path isDirectory)).getLast?, r.negated = true

instance : Decidable (Spares rules path d) := inferInstanceAs (Decidable (∀ r ∈ _, _))

/-- **The last rule that matches decides**, and a path that no rule matches is not left out. -/
theorem ignores_eq_false_iff : ignores rules path d = false ↔ Spares rules path d := by
  rw [ignores, decideFrom, Spares]
  induction rules using List.reverseRecOn with
  | nil => simp
  | append_singleton rs r ih =>
    rw [List.foldl_concat, List.filter_append, List.filter_singleton]
    cases r.isMatch path d with
    | true =>
      rw [if_pos rfl, cond_true, List.getLast?_concat]
      simp
    | false =>
      rw [if_neg Bool.false_ne_true, cond_false, List.append_nil]
      exact ih

end IgnoreRule

namespace Tree

/-- Whether no two entries of a directory have one name, nor any two of a directory below. -/
inductive HasDistinctNames : List Tree → Prop
  | intro {es : List Tree} (hnames : (es.map name).Nodup)
      (hbelow : ∀ n sub, directory n sub ∈ es → HasDistinctNames sub) : HasDistinctNames es

/-- Whether nothing hides the file at the end of a way down: not its name, no rule for its path, and
for each directory above it neither its name nor a rule for its path. -/
structure IsShown (rules : List IgnoreRule) (names : List String) : Prop where
  name : ∀ n ∈ names.getLast?, n ∉ strayNames
  file : IgnoreRule.Spares rules (pathOf names) false
  above : ∀ dirs n rest, names = dirs ++ n :: rest → rest ≠ [] →
    n ∉ Classification.standard.excludedDirectories ∧
      IgnoreRule.Spares rules (pathOf (dirs ++ [n])) true

/-- Whether the file at the end of one way down comes before that at the end of another: where the
ways part, files come before directories, and of two files or two directories the one with the
lesser name comes first. -/
def Precedes : List String → List String → Prop
  | [n], [m] => n < m
  | [_], _ :: _ :: _ => True
  | n :: k :: ns, m :: l :: ms => n < m ∨ (n = m ∧ Precedes (k :: ns) (l :: ms))
  | _, _ => False

variable {rules : List IgnoreRule} {dir n m path : String} {names names' : List String}
  {es : List Tree}
  {bytes : List UInt8}

theorem isStray_eq_false_iff :
    isStray rules dir n = false ↔ n ∉ strayNames ∧
      IgnoreRule.Spares rules (pathIn dir n) false := by
  rw [isStray, Bool.or_eq_false_iff, IgnoreRule.ignores_eq_false_iff, List.contains_eq_mem,
    decide_eq_false_iff_not]

theorem isClosed_eq_false_iff :
    isClosed rules dir n = false ↔
      n ∉ Classification.standard.excludedDirectories ∧
        IgnoreRule.Spares rules (pathIn dir n) true := by
  rw [isClosed, Bool.or_eq_false_iff, IgnoreRule.ignores_eq_false_iff, List.contains_eq_mem,
    decide_eq_false_iff_not]

theorem eq_nil_of_singleton_eq {dirs rest : List String} (h : [m] = dirs ++ n :: rest) :
    rest = [] := by
  rcases List.append_eq_singleton_iff.1 h.symm with ⟨-, h⟩ | ⟨-, h⟩
  · exact (List.cons.inj h).2
  · cases h

/-- A walk from a directory on goes the ways on which it meets nothing that is left out. -/
theorem passes_iff_of_dir (hne : names ≠ []) :
    Passes rules dir names ↔ (∀ n ∈ names.getLast?, n ∉ strayNames) ∧
      IgnoreRule.Spares rules (names.foldl pathIn dir) false ∧
      ∀ dirs n rest, names = dirs ++ n :: rest → rest ≠ [] →
        n ∉ Classification.standard.excludedDirectories ∧
        IgnoreRule.Spares rules (pathIn (dirs.foldl pathIn dir) n) true := by
  induction names generalizing dir with
  | nil => exact absurd rfl hne
  | cons m ms ih =>
    by_cases hms : ms = []
    · subst hms
      rw [Passes, isStray_eq_false_iff]
      simp only [List.getLast?_singleton, Option.mem_def, Option.some.injEq, forall_eq',
        List.foldl_cons, List.foldl_nil]
      constructor
      · rintro ⟨hname, hfile⟩
        exact ⟨hname, hfile, fun dirs n rest heq hrest => absurd (eq_nil_of_singleton_eq heq) hrest⟩
      · rintro ⟨hname, hfile, -⟩
        exact ⟨hname, hfile⟩
    · rw [passes_cons hms, isClosed_eq_false_iff, ih hms, List.getLast?_cons_of_ne_nil hms,
        List.foldl_cons]
      constructor
      · rintro ⟨hopen, hname, hfile, habove⟩
        refine ⟨hname, hfile, fun dirs n rest heq hrest => ?_⟩
        cases dirs with
        | nil =>
          obtain ⟨rfl, -⟩ := List.cons.inj heq
          exact hopen
        | cons e dirs =>
          obtain ⟨rfl, htail⟩ := List.cons.inj heq
          exact habove dirs n rest htail hrest
      · rintro ⟨hname, hfile, habove⟩
        refine ⟨habove [] m ms rfl hms, hname, hfile, fun dirs n rest heq hrest => ?_⟩
        exact habove (m :: dirs) n rest (congrArg (m :: ·) heq) hrest

/-- **A walk goes the ways to the files that nothing hides.** -/
theorem passes_iff_isShown (hne : names ≠ []) : Passes rules "" names ↔ IsShown rules names := by
  rw [passes_iff_of_dir hne]
  constructor
  · rintro ⟨hname, hfile, habove⟩
    refine ⟨hname, hfile, fun dirs n rest heq hrest => ?_⟩
    rw [pathOf_concat]
    exact habove dirs n rest heq hrest
  · rintro ⟨hname, hfile, habove⟩
    refine ⟨hname, hfile, fun dirs n rest heq hrest => ?_⟩
    have h := habove dirs n rest heq hrest
    rwa [pathOf_concat] at h

theorem precedes_of_lt (h : n < m) (hfile : names = [] ↔ names' = []) :
    Precedes (n :: names) (m :: names') := by
  cases names with
  | nil => rwa [hfile.1 rfl]
  | cons k ks =>
    cases names' with
    | nil => cases hfile.2 rfl
    | cons l ls => exact .inl h

theorem precedes_cons_self (h : Precedes names names') (hne : names ≠ []) (hne' : names' ≠ []) :
    Precedes (n :: names) (n :: names') := by
  obtain ⟨k, ks, rfl⟩ := List.exists_cons_of_ne_nil hne
  obtain ⟨l, ls, rfl⟩ := List.exists_cons_of_ne_nil hne'
  exact .inr ⟨rfl, h⟩

theorem precedes_singleton_cons (hne : names ≠ []) : Precedes [n] (m :: names) := by
  obtain ⟨k, ks, rfl⟩ := List.exists_cons_of_ne_nil hne
  trivial

/-- No file comes before itself. -/
theorem not_precedes_self (names : List String) : ¬Precedes names names := by
  induction names with
  | nil => exact id
  | cons n ns ih =>
    cases ns with
    | nil => exact String.lt_irrefl n
    | cons k ks =>
      rintro (hlt | ⟨-, h⟩)
      · exact String.lt_irrefl n hlt
      · exact ih h

/-- What is sorted by name is in strict order if no name is there twice. -/
theorem pairwise_byName {α : Type} {xs : List (String × α)} (h : (xs.map Prod.fst).Nodup) :
    (byName xs).Pairwise fun a b => a.1 < b.1 := by
  have hsorted : (byName xs).Pairwise fun a b => a.1 ≤ b.1 := by
    have hmap : (byName xs).map Prod.fst = Text.sorted (xs.map Prod.fst) :=
      List.map_mergeSort fun _ _ _ _ => rfl
    exact List.pairwise_map.1 (hmap ▸ Text.pairwise_sorted _)
  have hnodup : (byName xs).Pairwise fun a b => a.1 ≠ b.1 :=
    List.pairwise_map.1 (((List.mergeSort_perm _ _).map Prod.fst).nodup_iff.2 h)
  exact (hsorted.and hnodup).imp fun ⟨hle, hne⟩ => Std.lt_of_le_of_ne hle hne

/-- Items under the names of the entries that they were made of, at most one for
each, have distinct names. -/
theorem nodup_names_flatMap {α : Type} {made : Tree → List (String × α)}
    (hmade : ∀ t, ∀ p ∈ made t, made t = [p] ∧ p.1 = t.name) (h : (es.map name).Nodup) :
    ((es.flatMap made).map Prod.fst).Nodup := by
  rw [List.Nodup, List.pairwise_map] at h ⊢
  refine List.pairwise_flatMap.2 ⟨fun t _ => ?_, h.imp fun hne p hp q hq => ?_⟩
  · cases hmt : made t with
    | nil => exact List.Pairwise.nil
    | cons p ps =>
      obtain ⟨hlone, -⟩ := hmade t p (hmt ▸ List.mem_cons_self ..)
      rw [← hmt, hlone]
      exact List.pairwise_singleton _ p
  · rwa [(hmade _ p hp).2, (hmade _ q hq).2]

/-- Whether one file of a listing lies at the end of a way down that precedes the
way to the other one. -/
def IsListedBefore (es : List Tree) (dir : String) (f g : String × List UInt8) : Prop :=
  ∃ names names', FileAt f.2 es names ∧ FileAt g.2 es names' ∧ f.1 = names.foldl pathIn dir ∧
    g.1 = names'.foldl pathIn dir ∧ Precedes names names'

theorem IsListedBefore.inner {sub : List Tree} {f g : String × List UInt8}
    (hsub : directory n sub ∈ es) (h : IsListedBefore sub (pathIn dir n) f g) :
    IsListedBefore es dir f g := by
  obtain ⟨names, names', hf, hg, hpath, hpath', hprecedes⟩ := h
  exact ⟨n :: names, n :: names', .inner hsub hf, .inner hsub hg, hpath, hpath',
    precedes_cons_self hprecedes hf.ne_nil hg.ne_nil⟩

/-- A directory's own files are listed by name. -/
theorem pairwise_ownFiles (h : (es.map name).Nodup) :
    (ownFiles rules dir es).Pairwise (IsListedBefore es dir) := by
  have hdistinct : ((es.filterMap (keptFile? rules dir)).map Prod.fst).Nodup := by
    rw [List.filterMap_eq_flatMap_toList]
    refine nodup_names_flatMap (fun t p hp => ?_) h
    have hkept := Option.mem_toList.1 hp
    refine ⟨congrArg Option.toList hkept, ?_⟩
    obtain ⟨rfl, -⟩ := keptFile?_eq_some_iff.1 hkept
    rfl
  rw [ownFiles_eq, List.pairwise_map]
  refine (pairwise_byName hdistinct).imp_of_mem ?_
  rintro ⟨n, bytes⟩ ⟨m, bytes'⟩ hn hm hlt
  obtain ⟨t, hfile, hkept⟩ := List.mem_filterMap.1 (List.mem_mergeSort.1 hn)
  obtain ⟨rfl, -⟩ := keptFile?_eq_some_iff.1 hkept
  obtain ⟨t', hfile', hkept'⟩ := List.mem_filterMap.1 (List.mem_mergeSort.1 hm)
  obtain ⟨rfl, -⟩ := keptFile?_eq_some_iff.1 hkept'
  exact ⟨[n], [m], .here hfile, .here hfile', rfl, rfl, hlt⟩

/-- **A walk lists files in order.** -/
theorem pairwise_listed (h : HasDistinctNames es) :
    (listed rules dir es).Pairwise (IsListedBefore es dir) := by
  induction h generalizing dir with
  | @intro es hnames hbelow ih =>
    have hdistinct : ((visibleBelowAll rules dir es).map Prod.fst).Nodup := by
      rw [visibleBelowAll_eq_flatMap]
      refine nodup_names_flatMap ?_ hnames
      rintro t ⟨n, below⟩ hn
      obtain ⟨sub, rfl, hopen, rfl⟩ := mem_visibleBelow.1 hn
      exact ⟨visibleBelow_of_open hopen sub, rfl⟩
    rw [listed]
    refine List.pairwise_append.2 ⟨pairwise_ownFiles hnames, List.pairwise_flatMap.2 ⟨?_, ?_⟩, ?_⟩
    · rintro ⟨n, below⟩ hmem
      obtain ⟨sub, hsub, -, rfl⟩ := mem_visibleBelowAll.1 (List.mem_mergeSort.1 hmem)
      exact (ih n sub hsub).imp (IsListedBefore.inner hsub)
    · refine (pairwise_byName hdistinct).imp_of_mem ?_
      rintro ⟨n, below⟩ ⟨m, below'⟩ hn hm hlt ⟨path, bytes⟩ hf ⟨path', bytes'⟩ hg
      obtain ⟨sub, hsub, -, rfl⟩ := mem_visibleBelowAll.1 (List.mem_mergeSort.1 hn)
      obtain ⟨sub', hsub', -, rfl⟩ := mem_visibleBelowAll.1 (List.mem_mergeSort.1 hm)
      obtain ⟨names, hfile, -, rfl⟩ := exists_fileAt_of_mem_listed _ _ hf
      obtain ⟨names', hfile', -, rfl⟩ := exists_fileAt_of_mem_listed _ _ hg
      exact ⟨n :: names, m :: names', .inner hsub hfile, .inner hsub' hfile', rfl, rfl,
        precedes_of_lt hlt (iff_of_false hfile.ne_nil hfile'.ne_nil)⟩
    · rintro ⟨path, bytes⟩ hf ⟨path', bytes'⟩ hg
      obtain ⟨n, hfile, -, rfl⟩ := mem_ownFiles.1 hf
      obtain ⟨⟨m, below⟩, hm, hg⟩ := List.mem_flatMap.1 hg
      obtain ⟨sub, hsub, -, rfl⟩ := mem_visibleBelowAll.1 (List.mem_mergeSort.1 hm)
      obtain ⟨names, hfile', -, rfl⟩ := exists_fileAt_of_mem_listed _ _ hg
      exact ⟨[n], m :: names, .here hfile, .inner hsub hfile', rfl, rfl,
        precedes_singleton_cons hfile'.ne_nil⟩

/-- The path of a file that lies at the end of a way down has the names on the
way for its segments. -/
theorem FileAt.fieldsOf_pathOf (hplain : HasPlainNames es) (h : FileAt bytes es names) :
    Text.fieldsOf '/' (pathOf names) = names :=
  Tree.fieldsOf_pathOf h.ne_nil (hplain bytes names h)

/-- **What a walk over a checkout lists,** for names such as a file system has: of the files of the
checkout, those that nothing hides, and no others; each of them once; and in order. -/
theorem visible_exact (rules : List IgnoreRule) (hplain : HasPlainNames es)
    (hdistinct : HasDistinctNames es) :
    (∀ bytes names, FileAt bytes es names →
      ((pathOf names, bytes) ∈ visible rules es ↔ IsShown rules names)) ∧
      (∀ path bytes, (path, bytes) ∈ visible rules es → ∃ names, FileAt bytes es names ∧
        path = pathOf names) ∧
      ((visible rules es).map Prod.fst).Nodup ∧
      (visible rules es).Pairwise fun f g =>
        Precedes (Text.fieldsOf '/' f.1) (Text.fieldsOf '/' g.1) := by
  have hordered : (visible rules es).Pairwise fun f g =>
      Precedes (Text.fieldsOf '/' f.1) (Text.fieldsOf '/' g.1) := by
    have hlisted : (listed rules "" es).Pairwise (IsListedBefore es "") := pairwise_listed hdistinct
    refine hlisted.imp ?_
    rintro ⟨path, bytes⟩ ⟨path', bytes'⟩ ⟨names, names', hfile, hfile', rfl, rfl, hprecedes⟩
    have hfields : Text.fieldsOf '/' (pathOf names) = names := hfile.fieldsOf_pathOf hplain
    have hfields' : Text.fieldsOf '/' (pathOf names') = names' := hfile'.fieldsOf_pathOf hplain
    exact hfields.symm ▸ hfields'.symm ▸ hprecedes
  refine ⟨fun bytes names hfile => ?_, fun path bytes hmem => ?_, ?_, hordered⟩
  · rw [mem_visible_iff_of_fileAt hplain hfile, passes_iff_isShown hfile.ne_nil]
  · obtain ⟨names, hfile, -, hpath⟩ := mem_visible_iff.1 hmem
    exact ⟨names, hfile, hpath⟩
  · refine List.pairwise_map.2 (hordered.imp fun {f g} hprecedes heq => ?_)
    rw [heq] at hprecedes
    exact not_precedes_self _ hprecedes

/-- A checkout with two logs and a directory for what is built. -/
def buildTree : List Tree :=
  [.file "keep.log" [], .directory "build" [.file "out.py" []], .file "debug.log" []]

/-- The logs are left out, but for one of them, and so is what lies in the directory. -/
def buildRules : List IgnoreRule := IgnoreRule.ofText "*.log\n!keep.log\nbuild/\n"

theorem hasPlainNames_buildTree : HasPlainNames buildTree := by
  refine hasPlainNames_of_entries fun t ht => ?_
  simp only [buildTree, List.mem_cons, List.not_mem_nil, or_false] at ht
  rcases ht with rfl | rfl | rfl
  · exact ⟨by decide, hasPlainNames_of_entries nofun⟩
  · refine ⟨by decide, hasPlainNames_of_entries fun t ht => ?_⟩
    obtain rfl := List.mem_singleton.1 ht
    exact ⟨by decide, hasPlainNames_of_entries nofun⟩
  · exact ⟨by decide, hasPlainNames_of_entries nofun⟩

theorem hasDistinctNames_buildTree : HasDistinctNames buildTree := by
  refine .intro (by decide) fun n sub hsub => ?_
  simp only [buildTree, List.mem_cons, List.not_mem_nil, or_false, false_or, directory.injEq,
    reduceCtorEq] at hsub
  obtain ⟨rfl, rfl⟩ := hsub
  exact .intro (by decide) fun n sub hsub => nomatch List.mem_singleton.1 hsub

theorem visible_exact_of_build :
    HasPlainNames buildTree ∧ HasDistinctNames buildTree ∧
      ("keep.log", []) ∈ visible buildRules buildTree ∧
      ("debug.log", []) ∉ visible buildRules buildTree ∧
        ("build/out.py", []) ∉ visible buildRules buildTree := by
  obtain ⟨hshown, -, -, -⟩ :=
    visible_exact buildRules hasPlainNames_buildTree hasDistinctNames_buildTree
  have hkeep : FileAt [] buildTree ["keep.log"] := .here (by simp [buildTree])
  have hdebug : FileAt [] buildTree ["debug.log"] := .here (by simp [buildTree])
  have hout : FileAt [] buildTree ["build", "out.py"] :=
    .inner (List.mem_cons_of_mem _ (List.mem_cons_self ..)) (.here (List.mem_cons_self ..))
  refine ⟨hasPlainNames_buildTree, hasDistinctNames_buildTree,
    (hshown _ _ hkeep).2 ⟨by decide, by decide +kernel, ?_⟩, fun hmem => ?_, fun hmem => ?_⟩
  · intro dirs n rest heq hrest
    exact absurd (eq_nil_of_singleton_eq heq) hrest
  · exact absurd ((hshown _ _ hdebug).1 hmem).file (by decide +kernel)
  · exact absurd (((hshown _ _ hout).1 hmem).above [] "build" ["out.py"] rfl (by decide)).2
      (by decide +kernel)

end Tree
end CodeSurvey
