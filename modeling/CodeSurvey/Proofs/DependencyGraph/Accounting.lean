/-
# Every import is accounted for

A graph that is built from the imports of its files, and not from a sample, says of every specifier
of every parseable file what became of it: it names a package and is filed as external, it is
relative and is filed as unresolved, or it leads to a known file (`Accounted.once`). The two files
of entries hold nothing else (`FiledExactly`), and the edges that are evidence are one for each file
and each other file that it leads to (`Accounted.evidence_eq`). `imports_accounted` proves this of
every build over finders that never fail.
-/

import CodeSurvey.Proofs.DependencyGraph.Invariants
import CodeSurvey.Proofs.Import.Scan

namespace CodeSurvey
namespace GraphBuild

/-- One of three statements holds and the others do not. -/
def ExactlyOne (p q r : Prop) : Prop := (p ∧ ¬q ∧ ¬r) ∨ (¬p ∧ q ∧ ¬r) ∨ (¬p ∧ ¬q ∧ r)

/-- Whether a text is filed under a path. -/
def IsFiled (entries : List (String × List String)) (path s : String) : Prop :=
  ∃ xs, (path, xs) ∈ entries ∧ s ∈ xs

/-- Entries by path that hold, for each parseable file that has any, exactly those of its specifiers
of which `p` holds, in order and none twice. -/
structure FiledExactly (c : Classification) (scan : Scanner) (files : List SourceFile)
    (p : SourceFile → String → Bool) (entries : List (String × List String)) : Prop where
  keys_nodup : (entries.map Prod.fst).Nodup
  mem_iff : ∀ path xs, (path, xs) ∈ entries ↔
    ∃ f ∈ files, f.path = path ∧ c.isParseable path ∧
      ∃ ss, scan f.path f.content = .ok ss ∧ xs = ss.filter (p f) ∧ xs ≠ []
  items_nodup : ∀ m ∈ entries, m.2.Nodup

/-- The paths that an import can lead to. -/
def knownPaths (c : Classification) (files : List SourceFile) : List String :=
  (analyzable c files).map (·.path)

/-- A graph that accounts for every import of some files. -/
structure Accounted (c : Classification) (scan : Scanner) (files : List SourceFile)
    (g : DependencyGraph) :
    Prop where
  once : ∀ f ∈ files, c.isParseable f.path → ∃ ss, scan f.path f.content = .ok ss ∧ ∀ s ∈ ss,
    ExactlyOne
      (Resolve.isRelative s = false ∧ IsFiled g.externalImports f.path s)
      (Resolve.isRelative s = true ∧ Resolve.resolve? s f.path (knownPaths c files) = none ∧
        IsFiled g.unresolved f.path s)
      (Resolve.isRelative s = true ∧ ∃ t ∈ knownPaths c files,
        Resolve.resolve? s f.path (knownPaths c files) = some t)
  external : FiledExactly c scan files (fun _ s => !Resolve.isRelative s) g.externalImports
  unresolved : FiledExactly c scan files
    (fun f s => Resolve.isRelative s && (Resolve.resolve? s f.path (knownPaths c files)).isNone)
      g.unresolved
  evidence_iff : ∀ s t, ⟨s, t, false⟩ ∈ g.edges ↔
    ∃ f ∈ files, f.path = s ∧ c.isParseable s ∧ t ≠ s ∧ ∃ ss, scan f.path f.content = .ok ss ∧
      ∃ spec ∈ ss, Resolve.isRelative spec ∧ Resolve.resolve? spec s (knownPaths c files) = some t
  evidence_eq : (g.edges.filter fun e => !e.inferred) =
    (analyzable c files).flatMap fun f =>
      edgesTo f.path (importedBy (knownPaths c files) f.path (specifiersIn c scan f))
  evidence_nodup : ((g.edges.filter fun e => !e.inferred).map fun e => (e.source, e.target)).Nodup

theorem isAnalyzable_of_isParseable {c : Classification} {path : String} (h : c.isParseable path) :
    c.isAnalyzable path := by
  rw [Classification.isParseable, Bool.and_eq_true] at h
  exact h.1

/-- A file that is not parseable imports nothing; any other imports what the scan gives. -/
theorem mem_specifiersIn {c : Classification} {scan : Scanner} {f : SourceFile} {s : String} :
    s ∈ specifiersIn c scan f ↔
      c.isParseable f.path ∧ ∃ ss, scan f.path f.content = .ok ss ∧ s ∈ ss := by
  unfold specifiersIn specifiersOf
  split
  · rename_i hp
    cases hscan : scan f.path f.content with
    | ok ss => simp [hp, Except.toOption]
    | error e => simp [hp, Except.toOption]
  · rename_i hp
    simp [hp, Except.toOption]

theorem specifiersIn_of_parseable {c : Classification} {scan : Scanner} {f : SourceFile}
    {ss : List String} (hp : c.isParseable f.path) (h : scan f.path f.content = .ok ss) :
    specifiersIn c scan f = ss := by
  rw [specifiersIn, specifiersOf, if_pos hp, h]
  rfl

/-- Entries of the specifiers of analyzable files of which `p` holds file exactly these. -/
theorem filedExactly_flatMap_entryOf {c : Classification} {scan : Scanner} {files : List SourceFile}
    (hpaths : (files.map (·.path)).Nodup)
    (hscan : ∀ path content ss, scan path content = .ok ss → ss.Nodup)
    (p : SourceFile → String → Bool) :
    FiledExactly c scan files p
      ((analyzable c files).flatMap fun f =>
        entryOf f.path ((specifiersIn c scan f).filter (p f))) := by
  refine ⟨?_, fun path xs => ?_, ?_⟩
  · rw [keys_flatMap_entryOf]
    exact (nodup_analyzable c hpaths).sublist (List.filter_sublist.map _)
  · rw [mem_flatMap_entryOf]
    constructor
    · rintro ⟨f, hf, rfl, rfl, hne⟩
      obtain ⟨s, hs⟩ := List.exists_mem_of_ne_nil _ hne
      obtain ⟨hp, ss, hss, -⟩ := mem_specifiersIn.1 (List.mem_filter.1 hs).1
      refine ⟨f, (mem_analyzable.1 hf).1, rfl, hp, ss, hss, ?_, hne⟩
      rw [specifiersIn_of_parseable hp hss]
    · rintro ⟨f, hf, rfl, hp, ss, hss, rfl, hne⟩
      refine ⟨f, mem_analyzable.2 ⟨hf, isAnalyzable_of_isParseable hp⟩, rfl, ?_, hne⟩
      rw [specifiersIn_of_parseable hp hss]
  · rintro ⟨path, xs⟩ hm
    obtain ⟨f, -, -, rfl, hne⟩ := mem_flatMap_entryOf.1 hm
    obtain ⟨s, hs⟩ := List.exists_mem_of_ne_nil _ hne
    obtain ⟨hp, ss, hss, -⟩ := mem_specifiersIn.1 (List.mem_filter.1 hs).1
    rw [specifiersIn_of_parseable hp hss]
    exact (hscan _ _ _ hss).filter _

/-- The edges of a graph of links that are evidence are those of the links. -/
theorem evidence_graph (l : Limits) {nodes : List GraphNode} (hnodes : (nodes.map (·.id)).Nodup)
    {links : Links} (h : ∀ e ∈ links.edges, e.inferred = false) :
    ((links.graph l nodes).edges.filter fun e => !e.inferred) = links.edges := by
  unfold Links.graph
  dsimp only
  split
  · rename_i hnone
    have hinferred : ((fallbackLinks l nodes).filter fun e => !e.inferred) = [] := by
      rw [List.filter_eq_nil_iff]
      intro e he
      rw [(fallbackLinks_edgesAmong l hnodes).inferred e he]
      exact Bool.false_ne_true
    rw [Bool.and_eq_true, List.isEmpty_iff] at hnone
    rw [hinferred, hnone.1]
  · rw [List.filter_eq_self]
    intro e he
    rw [h e he]
    rfl

/-- The links of the analyzable files account for every import, where a scan names nothing twice. -/
theorem chosenLinks_accounted {c : Classification} {scan : Scanner} (l : Limits)
    {files : List SourceFile} (hpaths : (files.map (·.path)).Nodup)
    (hscan : ∀ path content ss, scan path content = .ok ss → ss.Nodup)
    (hscanned : ∀ f ∈ analyzable c files, specifiersOf c scan f = .ok (specifiersIn c scan f)) :
    Accounted c scan files ((chosenLinks c scan files).graph l (nodesOf (analyzable c files))) := by
  have hnodup := nodup_analyzable c hpaths
  have hids : ((nodesOf (analyzable c files)).map (·.id)).Nodup := by rwa [ids_nodesOf]
  have hedges := linksOf_edgesAmong c scan hnodup
  have hevident : ∀ e ∈ (chosenLinks c scan files).edges, e.inferred = false := hedges.inferred
  have hevidence := evidence_graph l hids hevident
  have hexternal := filedExactly_flatMap_entryOf hpaths hscan (c := c) fun _ s =>
    !Resolve.isRelative s
  have hunresolved := filedExactly_flatMap_entryOf hpaths hscan (c := c) fun f s =>
    Resolve.isRelative s && (Resolve.resolve? s f.path (knownPaths c files)).isNone
  have hresult : ∀ f ∈ files, c.isParseable f.path →
      scan f.path f.content = .ok (specifiersIn c scan f) := by
    intro f hf hp
    have h := hscanned f (mem_analyzable.2 ⟨hf, isAnalyzable_of_isParseable hp⟩)
    rwa [specifiersOf, if_pos hp] at h
  refine ⟨fun f hf hp => ⟨_, hresult f hf hp, fun s hs => ?_⟩, hexternal, hunresolved,
    fun s t => ?_, hevidence, ?_⟩
  · -- Which of the three holds is read off the specifier, and the entries follow.
    have hfiled : ∀ (p : SourceFile → String → Bool) entries,
        FiledExactly c scan files p entries → p f s → IsFiled entries f.path s := by
      intro p entries h hps
      have hmem : s ∈ (specifiersIn c scan f).filter (p f) := List.mem_filter.2 ⟨hs, hps⟩
      exact ⟨_, (h.mem_iff _ _).2 ⟨f, hf, rfl, hp, _, hresult f hf hp, rfl,
        List.ne_nil_of_mem hmem⟩, hmem⟩
    cases hrel : Resolve.isRelative s with
    | false =>
      refine Or.inl ⟨⟨rfl, hfiled _ _ hexternal (by simp [hrel])⟩, ?_, ?_⟩
      · exact fun h => Bool.false_ne_true h.1
      · exact fun h => Bool.false_ne_true h.1
    | true =>
      cases hres : Resolve.resolve? s f.path (knownPaths c files) with
      | none =>
        refine Or.inr (Or.inl ⟨fun h => Bool.false_ne_true h.1.symm, ⟨rfl, rfl, ?_⟩, ?_⟩)
        · exact hfiled _ _ hunresolved (by simp [hrel, hres])
        · rintro ⟨-, t, -, ht⟩
          cases ht
      | some t =>
        refine Or.inr (Or.inr ⟨fun h => Bool.false_ne_true h.1.symm, fun h => ?_,
          ⟨rfl, t, ?_, rfl⟩⟩)
        · cases h.2.1
        · exact Resolve.resolve?_mem hres
  · have hmem : ⟨s, t, false⟩ ∈
        ((chosenLinks c scan files).graph l (nodesOf (analyzable c files))).edges ↔
        ⟨s, t, false⟩ ∈ (chosenLinks c scan files).edges := by
      rw [← hevidence, List.mem_filter]
      simp
    rw [hmem, chosenLinks, linksOf, List.mem_flatMap]
    constructor
    · rintro ⟨f, hf, he⟩
      obtain ⟨rfl, htarget, -⟩ := mem_edgesTo.1 he
      obtain ⟨hne, spec, hspec, hrel, hres⟩ := mem_importedBy.1 htarget
      obtain ⟨hp, ss, hss, hmem⟩ := mem_specifiersIn.1 hspec
      exact ⟨f, (mem_analyzable.1 hf).1, rfl, hp, hne, ss, hss, spec, hmem, hrel, hres⟩
    · rintro ⟨f, hf, rfl, hp, hne, ss, hss, spec, hspec, hrel, hres⟩
      refine ⟨f, mem_analyzable.2 ⟨hf, isAnalyzable_of_isParseable hp⟩,
        mem_edgesTo.2 ⟨rfl, ?_, rfl⟩⟩
      exact mem_importedBy.2 ⟨hne, spec, mem_specifiersIn.2 ⟨hp, ss, hss, hspec⟩, hrel, hres⟩
  · rw [hevidence]
    exact hedges.distinct

/-- **Every import is accounted for exactly once.** Over files that are not too many and
finders that never fail, a build without a deadline gives a graph, and whatever graph a build
gives accounts for every import. The imports of a file are the distinct specifiers of the
first finder that answers. -/
theorem imports_accounted (c : Classification) {finders : List ImportFinder}
    (hfinders : ∀ x ∈ finders, x.Answers) {l : Limits} {files : List SourceFile}
    (hpaths : (files.map (·.path)).Nodup)
    (hsize : ((analyzable c files).length : Int) ≤ l.largeRepository) :
    (∃ g, (buildWith c (scanWith finders) l none files).outcome.value = .ok g) ∧
      (∀ path content ss, scanWith finders path content = .ok ss ↔
        IsScanOf ss finders path (content.getD "")) ∧
      ∀ (watch : Option (Deadline × Clock)) (g : DependencyGraph),
        (buildWith c (scanWith finders) l watch files).outcome.value = .ok g →
          Accounted c (scanWith finders) files g := by
  refine ⟨buildWith_without_deadline l fun f _ => scanWith_answers hfinders f.path f.content,
    fun _ _ _ => scanWith_eq_ok_iff, fun watch g h => ?_⟩
  rcases buildWith_eq_ok hpaths h with ⟨hlarge, -⟩ | ⟨rfl, hscanned⟩
  · omega
  · exact chosenLinks_accounted l hpaths (fun _ _ _ => nodup_of_scanWith) hscanned

/-- A file that names another twice, a package and a path that leads nowhere has all
of this accounted for. -/
theorem imports_accounted_of_repetition :
    let finder : ImportFinder := ⟨fun _ => true, fun _ _ => .ok (some
      [⟨"./b", .static, 1⟩, ⟨" ./b ", .dynamic, 2⟩, ⟨"react", .static, 3⟩,
        ⟨"../gone", .require, 4⟩])⟩
    let files : List SourceFile :=
      [{ path := "src/a.ts", content := some "import" },
        { path := "src/b.ts", content := some "import" }]
    (∀ x ∈ [finder], x.Answers) ∧ (files.map (·.path)).Nodup ∧
      ((analyzable .standard files).length : Int) ≤ ({} : Limits).largeRepository ∧
      ∃ g, (buildWith .standard (scanWith [finder]) {} none files).outcome.value = .ok g ∧
        Accounted .standard (scanWith [finder]) files g := by
  intro finder files
  have hfinders : ∀ x ∈ [finder], x.Answers := by
    intro x hx path text _
    rw [List.mem_singleton] at hx
    rw [hx]
    exact ⟨_, rfl⟩
  have hpaths : (files.map (·.path)).Nodup := by decide
  have hsize : ((analyzable .standard files).length : Int) ≤ ({} : Limits).largeRepository := by
    have hle : (analyzable .standard files).length ≤ 2 := List.length_filter_le _ files
    have hlimit : ({} : Limits).largeRepository = 200 := rfl
    omega
  obtain ⟨⟨g, hg⟩, -, haccounted⟩ := imports_accounted .standard hfinders hpaths hsize
  exact ⟨hfinders, hpaths, hsize, g, hg, haccounted none g hg⟩

end GraphBuild
end CodeSurvey
