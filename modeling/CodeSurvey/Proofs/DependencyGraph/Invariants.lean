/-
# What every dependency graph satisfies

`WellFormed` collects the invariants of a graph over some files: its nodes are a head of the
analyzable files, and all of them unless the graph is a fallback; its edges join nodes, none of
them leads from a node to itself, no two join the same ends, and all are inferred or all are
evidence, as the graph says; and two nodes are never without an edge. `graph_wellFormed` proves
them of every graph that is built, whatever the files import, and of every fallback. A build either
samples the files or follows all their imports (`buildWith_eq_ok`), and the rest is `EdgesAmong`
for the edges of either kind.
-/

import CodeSurvey.Proofs.DependencyGraph.Edges

namespace CodeSurvey
namespace GraphBuild

/-- The nodes of some files. -/
def nodesOf (files : List SourceFile) : List GraphNode := files.map fun f => nodeOf f.path

@[simp] theorem ids_nodesOf (files : List SourceFile) :
    (nodesOf files).map (·.id) = files.map (·.path) := by
  rw [nodesOf, List.map_map]
  rfl

theorem mem_analyzable {c : Classification} {files : List SourceFile} {f : SourceFile} :
    f ∈ analyzable c files ↔ f ∈ files ∧ c.isAnalyzable f.path := List.mem_filter

theorem analyzable_analyzable (c : Classification) (files : List SourceFile) :
    analyzable c (analyzable c files) = analyzable c files := by
  simp [analyzable]

theorem nodup_analyzable (c : Classification) {files : List SourceFile}
    (h : (files.map (·.path)).Nodup) : ((analyzable c files).map (·.path)).Nodup :=
  h.sublist (List.filter_sublist.map _)

/-- The links of the analyzable files. -/
def chosenLinks (c : Classification) (scan : Scanner) (files : List SourceFile) : Links :=
  linksOf c scan ((analyzable c files).map (·.path)) (analyzable c files)

/-- The graph of a fallback. -/
theorem value_buildFallback (c : Classification) (l : Limits) (files : List SourceFile)
    (reason : String) (detail : Option String) :
    (buildFallback c l files reason detail).value =
      { nodes := nodesOf (upTo l.fallbackSample (analyzable c files))
        edges := fallbackLinks l (nodesOf (upTo l.fallbackSample (analyzable c files)))
        fallback := true } := rfl

/-- The links of the analyzable files, followed one after the other. -/
def followedLinks (c : Classification) (scan : Scanner) (files : List SourceFile) : Links :=
  (analyzable c files).foldl
    (fun l f => l.followFile ((analyzable c files).map (·.path)) f.path (specifiersIn c scan f)) {}

/-- A build that gives a graph samples a repository that is too large, and follows the imports of
every analyzable file of any other. -/
theorem buildWith_eq_ok_of_followed {c : Classification} {scan : Scanner} {l : Limits}
    {watch : Option (Deadline × Clock)} {files : List SourceFile} {g : DependencyGraph}
    (h : (buildWith c scan l watch files).outcome.value = .ok g) :
    (l.largeRepository < (analyzable c files).length ∧
      ∃ reason, g = (buildFallback c l files reason none).value) ∨
      ((analyzable c files).length ≤ l.largeRepository ∧
        g = (followedLinks c scan files).graph l (nodesOf (analyzable c files)) ∧
        ∀ f ∈ analyzable c files, specifiersOf c scan f = .ok (specifiersIn c scan f)) := by
  unfold buildWith at h
  dsimp only at h
  split at h
  · left
    rename_i hlarge
    rw [Attempt.value_lift, Except.ok.injEq] at h
    refine ⟨hlarge, tooLarge (analyzable c files).length l.largeRepository, ?_⟩
    rw [← h, value_buildFallback, value_buildFallback, analyzable_analyzable]
  · right
    rename_i hsmall
    rw [Attempt.value_lift_bind, Attempt.value_bind_eq_ok] at h
    obtain ⟨links, hlinks, h⟩ := h
    obtain ⟨hfold, hscanned⟩ := followAll_eq_ok hlinks
    have hids : ((analyzable c files).map fun f => nodeOf f.path).map (·.id) =
        (analyzable c files).map (·.path) := ids_nodesOf _
    rw [hids] at hfold
    refine ⟨Int.not_lt.1 hsmall, ?_, hscanned⟩
    have hgraph : g = links.graph l (nodesOf (analyzable c files)) := by
      split at h
      all_goals
        simp only [Attempt.value_lift_bind] at h
        exact (Except.ok.inj h).symm
    rw [hgraph, hfold]
    rfl

/-- Where paths are distinct, a build that follows imports has the links of each
file, one after the other. -/
theorem buildWith_eq_ok {c : Classification} {scan : Scanner} {l : Limits}
    {watch : Option (Deadline × Clock)} {files : List SourceFile} {g : DependencyGraph}
    (hpaths : (files.map (·.path)).Nodup)
    (h : (buildWith c scan l watch files).outcome.value = .ok g) :
    (l.largeRepository < (analyzable c files).length ∧
      ∃ reason, g = (buildFallback c l files reason none).value) ∨
      (g = (chosenLinks c scan files).graph l (nodesOf (analyzable c files)) ∧
        ∀ f ∈ analyzable c files, specifiersOf c scan f = .ok (specifiersIn c scan f)) := by
  rcases buildWith_eq_ok_of_followed h with hlarge | ⟨-, hgraph, hscanned⟩
  · exact .inl hlarge
  · refine .inr ⟨?_, hscanned⟩
    rw [hgraph, followedLinks, foldl_followFile_eq c scan _ (nodup_analyzable c hpaths)]
    rfl

/-- Where all files can be scanned, it is known of every analyzable file what it imports. -/
theorem exists_specifiersOf (c : Classification) {scan : Scanner} {files : List SourceFile}
    (h : ∀ f ∈ files, ∃ ss, scan f.path f.content = .ok ss) :
    ∀ f ∈ analyzable c files, ∃ ss, specifiersOf c scan f = .ok ss := by
  intro f hf
  unfold specifiersOf
  split
  · exact h f (mem_analyzable.1 hf).1
  · exact ⟨[], rfl⟩

/-- A build without a deadline gives a graph if all files can be scanned. -/
theorem buildWith_without_deadline {c : Classification} {scan : Scanner} (l : Limits)
    {files : List SourceFile} (h : ∀ f ∈ files, ∃ ss, scan f.path f.content = .ok ss) :
    ∃ g, (buildWith c scan l none files).outcome.value = .ok g := by
  unfold buildWith
  dsimp only
  split
  · exact ⟨_, Attempt.value_lift _⟩
  · obtain ⟨links, hlinks⟩ :=
      followAll_without_deadline (((analyzable c files).map fun f => nodeOf f.path).map (·.id))
      (analyzable c files).length 0 {} (exists_specifiersOf c h)
    refine ⟨links.graph l (nodesOf (analyzable c files)), ?_⟩
    rw [Attempt.value_lift_bind, Attempt.value_bind_eq_ok]
    refine ⟨links, hlinks, ?_⟩
    split
    all_goals
      simp only [Attempt.value_lift_bind]
      rfl

/-- The invariants of a graph over some files. -/
structure WellFormed (c : Classification) (files : List SourceFile)
    (g : DependencyGraph) : Prop where
  nodes_isPrefix : g.nodes.map (·.id) <+: (analyzable c files).map (·.path)
  nodes_eq : g.fallback = false → g.nodes.map (·.id) = (analyzable c files).map (·.path)
  ends_mem : ∀ e ∈ g.edges, e.source ∈ g.nodes.map (·.id) ∧ e.target ∈ g.nodes.map (·.id)
  irreflexive : ∀ e ∈ g.edges, e.source ≠ e.target
  ends_nodup : (g.edges.map fun e => (e.source, e.target)).Nodup
  inferred_eq : ∀ e ∈ g.edges, e.inferred = g.fallback
  connected : 2 ≤ g.nodes.length → g.edges ≠ []

/-- The graph of some of the analyzable files, with edges among them, satisfies the invariants. -/
theorem wellFormed_of_edgesAmong {c : Classification} {files chosen : List SourceFile}
    {g : DependencyGraph} (hnodes : g.nodes = nodesOf chosen)
    (hhead : chosen <+: analyzable c files)
    (hall : g.fallback = false → chosen = analyzable c files)
    (hedges : EdgesAmong ((nodesOf chosen).map (·.id)) g.fallback g.edges)
    (hconnected : 2 ≤ (nodesOf chosen).length → g.edges ≠ []) : WellFormed c files g where
  nodes_isPrefix := by
    rw [hnodes, ids_nodesOf]
    exact hhead.map _
  nodes_eq h := by rw [hnodes, ids_nodesOf, hall h]
  ends_mem := hnodes ▸ hedges.known
  irreflexive := hedges.irreflexive
  ends_nodup := hedges.distinct
  inferred_eq := hedges.inferred
  connected := hnodes ▸ hconnected

/-- A fallback satisfies the invariants. -/
theorem buildFallback_wellFormed (c : Classification) {l : Limits} (hchain : 0 < l.fallbackChain)
    {files : List SourceFile} (hpaths : (files.map (·.path)).Nodup) (reason : String)
    (detail : Option String) :
    WellFormed c files (buildFallback c l files reason detail).value := by
  have hhead : upTo l.fallbackSample (analyzable c files) <+: analyzable c files :=
    upTo_isPrefix _ _
  have hnodup : ((nodesOf (upTo l.fallbackSample (analyzable c files))).map (·.id)).Nodup := by
    rw [ids_nodesOf]
    exact (nodup_analyzable c hpaths).sublist (hhead.sublist.map _)
  rw [value_buildFallback]
  exact wellFormed_of_edgesAmong rfl hhead (fun h => absurd h Bool.true_eq_false.mp)
    (fallbackLinks_edgesAmong l hnodup) (fallbackLinks_ne_nil hchain)

/-- The links of the analyzable files make a graph that satisfies the invariants. -/
theorem chosenLinks_wellFormed (c : Classification) (scan : Scanner) {l : Limits}
    (hchain : 0 < l.fallbackChain) {files : List SourceFile} (hpaths : (files.map (·.path)).Nodup) :
    WellFormed c files ((chosenLinks c scan files).graph l (nodesOf (analyzable c files))) := by
  have hnodup := nodup_analyzable c hpaths
  have hedges := linksOf_edgesAmong c scan hnodup
  have hids : ((nodesOf (analyzable c files)).map (·.id)).Nodup := by rwa [ids_nodesOf]
  have hinferred := fallbackLinks_edgesAmong l hids
  refine wellFormed_of_edgesAmong rfl (List.prefix_refl (analyzable c files)) (fun _ => rfl) ?_ ?_
  · unfold Links.graph
    dsimp only
    split
    · rename_i hnone
      rw [hnone]
      exact hinferred
    · rename_i hsome
      rw [Bool.eq_false_iff.2 hsome, ids_nodesOf]
      exact hedges
  · intro htwo
    unfold Links.graph
    dsimp only
    split
    · exact fallbackLinks_ne_nil hchain htwo
    · rename_i hsome
      intro hnil
      exact hsome (by simp [hnil, htwo])

/-- **Every dependency graph is well formed.** Whatever a scanner says that the files import, and
wherever a deadline leaves the build, a graph that comes of it satisfies the invariants, and so does
every fallback. If all files can be scanned, a build without a deadline does give a graph. -/
theorem graph_wellFormed (c : Classification) {l : Limits} (hchain : 0 < l.fallbackChain)
    {files : List SourceFile} (hpaths : (files.map (·.path)).Nodup) :
    (∀ (scan : Scanner) (watch : Option (Deadline × Clock)) (g : DependencyGraph),
        (buildWith c scan l watch files).outcome.value = .ok g → WellFormed c files g) ∧
      (∀ scan : Scanner, (∀ f ∈ files, ∃ ss, scan f.path f.content = .ok ss) →
        ∃ g, (buildWith c scan l none files).outcome.value = .ok g) ∧
      ∀ (reason : String) (detail : Option String),
        WellFormed c files (buildFallback c l files reason detail).value := by
  refine ⟨fun scan watch g h => ?_, fun scan h => buildWith_without_deadline l h,
    fun reason detail => buildFallback_wellFormed c hchain hpaths reason detail⟩
  rcases buildWith_eq_ok hpaths h with ⟨-, reason, rfl⟩ | ⟨rfl, -⟩
  · exact buildFallback_wellFormed c hchain hpaths reason none
  · exact chosenLinks_wellFormed c scan hchain hpaths

/-- Two files of which each imports a package, itself and a file that does not exist
make a well-formed graph. -/
theorem graph_wellFormed_of_lone_imports :
    let files : List SourceFile :=
      [{ path := "src/pages/Home.tsx" }, { path := "src/components/Button.tsx" }]
    let scan : Scanner :=
      fun path _ => .ok ["react", "./" ++ String.ofList (Path.name path.toList), "./Missing"]
    0 < ({} : Limits).fallbackChain ∧ (files.map (·.path)).Nodup ∧
      ∃ g, (buildWith .standard scan {} none files).outcome.value = .ok g ∧
        WellFormed .standard files g := by
  intro files scan
  have hchain : 0 < ({} : Limits).fallbackChain := by decide
  have hpaths : (files.map (·.path)).Nodup := by decide
  obtain ⟨hbuilt, hreturns, -⟩ := graph_wellFormed .standard hchain hpaths
  obtain ⟨g, hg⟩ := hreturns scan fun f _ => ⟨_, rfl⟩
  exact ⟨hchain, hpaths, g, hg, hbuilt scan none g hg⟩

end GraphBuild
end CodeSurvey
