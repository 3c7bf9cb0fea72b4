/-
# Where imports lead

Following the imports of a file sorts its specifiers out: packages are external, relative
specifiers that resolve to nothing are unresolved, and the others lead to files. `followFile_eq`
says what this adds to links that know nothing of the file yet: one entry for its packages and one
for its dead ends, if there are any, and one edge for each other file it leads to, in order of
first mention. Over files with distinct paths nothing interferes, so the links are those of the
files one after the other (`foldl_followFile_eq`), and `followAll_eq_ok` says that a build which is
not stopped has these links.
-/

import CodeSurvey.DependencyGraph.Build
import CodeSurvey.Proofs.Journal
import CodeSurvey.Proofs.Keyed

namespace CodeSurvey
namespace GraphBuild

/-- The specifiers that name packages. -/
def packagesIn (specifiers : List String) : List String :=
  specifiers.filter fun s => !Resolve.isRelative s

/-- The relative specifiers in a file that resolve to nothing. -/
def deadEndsIn (known : List String) (path : String) (specifiers : List String) : List String :=
  specifiers.filter fun s => Resolve.isRelative s && (Resolve.resolve? s path known).isNone

/-- The other file that a relative specifier in a file leads to. -/
def otherFile? (known : List String) (path specifier : String) : Option String :=
  if Resolve.isRelative specifier then
    (Resolve.resolve? specifier path known).filter (· != path) else none

/-- The other files that the specifiers in a file lead to, in order of first mention. -/
def importedBy (known : List String) (path : String) (specifiers : List String) : List String :=
  (specifiers.filterMap (otherFile? known path)).eraseDups

/-- The entry of a file, none if there is nothing to enter. -/
def entryOf (path : String) (xs : List String) : List (String × List String) :=
  if xs.isEmpty then [] else [(path, xs)]

/-- The edges from a file to others. -/
def edgesTo (path : String) (targets : List String) : List GraphEdge :=
  targets.map fun t => ⟨path, t, false⟩

theorem modify_entryOf (path s : String) (xs : List String) :
    Keyed.modify path [] (· ++ [s]) (entryOf path xs) = entryOf path (xs ++ [s]) := by
  cases xs with
  | nil => rfl
  | cons x xs => simp [entryOf, Keyed.modify]

theorem mem_importedBy {known : List String} {path t : String} {specifiers : List String} :
    t ∈ importedBy known path specifiers ↔
      t ≠ path ∧ ∃ s ∈ specifiers, Resolve.isRelative s ∧
        Resolve.resolve? s path known = some t := by
  rw [importedBy, List.mem_eraseDups, List.mem_filterMap]
  constructor
  · rintro ⟨s, hs, ht⟩
    unfold otherFile? at ht
    split at ht
    · rename_i hrel
      rw [Option.filter_eq_some_iff] at ht
      exact ⟨by simpa using ht.2, s, hs, hrel, ht.1⟩
    · cases ht
  · rintro ⟨hne, s, hs, hrel, hres⟩
    refine ⟨s, hs, ?_⟩
    rw [otherFile?, if_pos hrel, Option.filter_eq_some_iff]
    exact ⟨hres, by simpa using hne⟩

theorem mem_edgesTo {path : String} {targets : List String} {e : GraphEdge} :
    e ∈ edgesTo path targets ↔ e.source = path ∧ e.target ∈ targets ∧ e.inferred = false := by
  obtain ⟨s, t, i⟩ := e
  simp only [edgesTo, List.mem_map, GraphEdge.mk.injEq]
  constructor
  · rintro ⟨u, hu, rfl, rfl, rfl⟩
    exact ⟨rfl, hu, rfl⟩
  · rintro ⟨rfl, ht, rfl⟩
    exact ⟨t, ht, rfl, rfl, rfl⟩

/-- What links know of a path: nothing, if no edge starts there and no entry is its own. -/
structure Links.Lacks (l : Links) (path : String) : Prop where
  edges : ∀ e ∈ l.edges, e.source ≠ path
  external : path ∉ l.external.map Prod.fst
  unresolved : path ∉ l.unresolved.map Prod.fst

/-- **What a file adds to the links.** Its packages and its dead ends get an entry each, and every
other file that its specifiers lead to gets one edge. -/
theorem followFile_eq (known : List String) (path : String) {l : Links} (h : l.Lacks path)
    (specifiers : List String) :
    l.followFile known path specifiers =
      { edges := l.edges ++ edgesTo path (importedBy known path specifiers)
        external := l.external ++ entryOf path (packagesIn specifiers)
        unresolved := l.unresolved ++ entryOf path (deadEndsIn known path specifiers) } := by
  -- The induction is on the last specifier, as the links grow at their ends.
  induction specifiers using List.reverseRecOn with
  | nil => simp [Links.followFile, importedBy, packagesIn, deadEndsIn, entryOf, edgesTo]
  | append_singleton ss s ih =>
    rw [Links.followFile] at ih ⊢
    rw [List.foldl_concat, ih]
    by_cases hrel : Resolve.isRelative s
    · cases hres : Resolve.resolve? s path known with
      | none =>
        simp only [Links.follow, hrel, hres, packagesIn, deadEndsIn, importedBy, List.filter_append,
          List.filterMap_append, Keyed.modify_append_of_not_mem path [] _ h.unresolved,
          modify_entryOf]
        simp [otherFile?, hrel, hres]
      | some t =>
        have hsame : packagesIn (ss ++ [s]) = packagesIn ss ∧
            deadEndsIn known path (ss ++ [s]) = deadEndsIn known path ss := by
          simp [packagesIn, deadEndsIn, hrel, hres]
        simp only [Links.follow, hrel, hres, hsame.1, hsame.2]
        by_cases hself : t = path
        · simp [importedBy, otherFile?, hrel, hres, hself]
        · have hother : otherFile? known path s = some t := by
            simp [otherFile?, hrel, hres, hself]
          -- No earlier edge starts at this path, so only those that the file itself gave count.
          have hseen : (l.edges ++ edgesTo path (importedBy known path ss)).contains
              ⟨path, t, false⟩ =
              decide (t ∈ ss.filterMap (otherFile? known path)) := by
            rw [Bool.eq_iff_iff, List.contains_iff_mem, List.mem_append, mem_edgesTo,
              decide_eq_true_iff, importedBy, List.mem_eraseDups]
            constructor
            · rintro (he | he)
              · exact absurd rfl (h.edges _ he)
              · exact he.2.1
            · exact fun ht => Or.inr ⟨rfl, ht, rfl⟩
          rw [hseen]
          simp only [importedBy, List.filterMap_append, List.filterMap_cons,
            List.filterMap_nil, hother, eraseDups_concat]
          by_cases ht : t ∈ ss.filterMap (otherFile? known path)
          · simp [ht]
          · simp [ht, hself, edgesTo]
    · simp only [Links.follow, hrel, packagesIn, deadEndsIn, importedBy, List.filter_append,
        List.filterMap_append, Keyed.modify_append_of_not_mem path [] _ h.external, modify_entryOf]
      simp [otherFile?, hrel]

/-- What a file imports; nothing if that cannot be found out. -/
def specifiersIn (c : Classification) (scan : Scanner) (f : SourceFile) : List String :=
  (specifiersOf c scan f).toOption.getD []

/-- The links of some files, one after the other. -/
def linksOf (c : Classification) (scan : Scanner) (known : List String)
    (files : List SourceFile) : Links where
  edges := files.flatMap fun f => edgesTo f.path (importedBy known f.path (specifiersIn c scan f))
  external := files.flatMap fun f => entryOf f.path (packagesIn (specifiersIn c scan f))
  unresolved := files.flatMap fun f =>
    entryOf f.path (deadEndsIn known f.path (specifiersIn c scan f))

theorem mem_entryOf {path : String} {xs : List String} {m : String × List String} :
    m ∈ entryOf path xs ↔ m = (path, xs) ∧ xs ≠ [] := by
  unfold entryOf
  cases xs with
  | nil => simp
  | cons x xs => simp

theorem mem_flatMap_entryOf {files : List SourceFile} {listOf : SourceFile → List String}
    {path : String} {xs : List String} :
    (path, xs) ∈ (files.flatMap fun f => entryOf f.path (listOf f)) ↔
      ∃ f ∈ files, f.path = path ∧ listOf f = xs ∧ xs ≠ [] := by
  rw [List.mem_flatMap]
  constructor
  · rintro ⟨f, hf, hm⟩
    obtain ⟨he, hne⟩ := mem_entryOf.1 hm
    obtain ⟨rfl, rfl⟩ := Prod.mk.inj he
    exact ⟨f, hf, rfl, rfl, hne⟩
  · rintro ⟨f, hf, rfl, rfl, hne⟩
    exact ⟨f, hf, mem_entryOf.2 ⟨rfl, hne⟩⟩

/-- The entries stand under the paths of the files that have any, in order. -/
theorem keys_flatMap_entryOf (files : List SourceFile) (listOf : SourceFile → List String) :
    (files.flatMap fun f => entryOf f.path (listOf f)).map Prod.fst =
      (files.filter fun f => !(listOf f).isEmpty).map (·.path) := by
  induction files with
  | nil => rfl
  | cons f rest ih =>
    rw [List.flatMap_cons, List.map_append, ih]
    cases h : listOf f with
    | nil => simp [entryOf, h]
    | cons x xs => simp [entryOf, h]

/-- The links of some files know nothing of another path. -/
theorem linksOf_lacks (c : Classification) (scan : Scanner) (known : List String)
    {files : List SourceFile} {path : String} (h : path ∉ files.map (·.path)) :
    (linksOf c scan known files).Lacks path := by
  have hentries : ∀ listOf : SourceFile → List String,
      path ∉ (files.flatMap fun f => entryOf f.path (listOf f)).map Prod.fst := by
    intro listOf hp
    rw [keys_flatMap_entryOf] at hp
    exact h ((List.filter_sublist.map _).subset hp)
  refine ⟨fun e he hsource => ?_, hentries _, hentries _⟩
  obtain ⟨f, hf, hm⟩ := List.mem_flatMap.1 he
  exact h (List.mem_map.2 ⟨f, hf, (mem_edgesTo.1 hm).1.symm.trans hsource⟩)

/-- Files with distinct paths do not interfere: following them one after the other
gives the links of each. -/
theorem foldl_followFile_eq (c : Classification) (scan : Scanner) (known : List String)
    {files : List SourceFile} (h : (files.map (·.path)).Nodup) :
    files.foldl (fun l f => l.followFile known f.path (specifiersIn c scan f)) {} =
      linksOf c scan known files := by
  induction files using List.reverseRecOn with
  | nil => rfl
  | append_singleton files f ih =>
    rw [List.map_append, List.map_singleton, List.nodup_append] at h
    have hnew : f.path ∉ files.map (·.path) :=
      fun hf => h.2.2 _ hf _ (List.mem_singleton_self _) rfl
    rw [List.foldl_concat, ih h.1, followFile_eq known f.path (linksOf_lacks c scan known hnew)]
    simp [linksOf]

/-- A build that is not stopped has followed the imports of every file. -/
theorem followAll_eq_ok {c : Classification} {scan : Scanner} {known : List String} {total : Nat}
    {watch : Option (Deadline × Clock)} {done : Nat} {l l' : Links} {files : List SourceFile}
    (h : (followAll c scan known total watch done l files).outcome.value = .ok l') :
    l' = files.foldl (fun l f => l.followFile known f.path (specifiersIn c scan f)) l ∧
      ∀ f ∈ files, specifiersOf c scan f = .ok (specifiersIn c scan f) := by
  induction files generalizing watch done l with
  | nil =>
    have hl : Except.ok l = Except.ok l' := h
    exact ⟨(Except.ok.inj hl).symm, fun f hf => absurd hf List.not_mem_nil⟩
  | cons f rest ih =>
    rw [followAll, Attempt.value_bind_eq_ok] at h
    obtain ⟨watch', -, h⟩ := h
    obtain ⟨ss, hss, h⟩ := Attempt.value_bind_eq_ok.1 h
    rw [Attempt.outcome_ofOutcome, Recorded.value_pure] at hss
    have hspec : specifiersIn c scan f = ss := by rw [specifiersIn, hss]; rfl
    rw [Attempt.value_lift_bind] at h
    obtain ⟨hfold, hall⟩ := ih h
    refine ⟨by rw [List.foldl_cons, hspec, hfold], fun g hg => ?_⟩
    rcases List.mem_cons.1 hg with rfl | hg
    · rw [hspec, hss]
    · exact hall g hg

/-- Without a deadline nothing stops a build whose files can all be scanned. -/
theorem followAll_without_deadline {c : Classification} {scan : Scanner} (known : List String)
    (total done : Nat) (l : Links) {files : List SourceFile}
    (h : ∀ f ∈ files, ∃ ss, specifiersOf c scan f = .ok ss) :
    ∃ l', (followAll c scan known total none done l files).outcome.value = .ok l' := by
  induction files generalizing done l with
  | nil => exact ⟨l, rfl⟩
  | cons f rest ih =>
    obtain ⟨ss, hss⟩ := h f (List.mem_cons_self ..)
    obtain ⟨l', hl'⟩ := ih (done + 1) (l.followFile known f.path ss) fun g hg =>
      h g (List.mem_cons_of_mem _ hg)
    refine ⟨l', ?_⟩
    rw [followAll, Attempt.value_bind_eq_ok]
    refine ⟨none, rfl, Attempt.value_bind_eq_ok.2 ⟨ss, ?_, ?_⟩⟩
    · rw [Attempt.outcome_ofOutcome, Recorded.value_pure, hss]
    · rw [Attempt.value_lift_bind]
      exact hl'

end GraphBuild
end CodeSurvey
