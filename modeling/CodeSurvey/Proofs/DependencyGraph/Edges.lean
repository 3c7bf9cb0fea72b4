/-
# Edges between known modules

Edges come from three places: imports that were resolved, pairs of modules whose roles go together,
and the chain of neighbours. `EdgesAmong` is what they have in common: both ends are known, no edge
leads from a module to itself, no two edges join the same ends, and all of them are inferred or none
is. It holds of the links of files with distinct paths (`linksOf_edgesAmong`), of the edges that
roles suggest (`patternEdges_edgesAmong`) and of a chain (`chainEdges_edgesAmong`), and a head of a
list of such edges is one (`EdgesAmong.take`).

The loops over patterns, sources and targets add an edge only below the cap, so what they give is a
head of all edges that the patterns suggest (`patternLinks_eq_take`). Hence the inferred edges
within any limits have the form too (`fallbackLinks_edgesAmong`).
-/

import CodeSurvey.Proofs.DependencyGraph.Links
import Mathlib.Data.List.ProdSigma

namespace CodeSurvey
namespace GraphBuild

/-- The two ends of an edge. -/
def endsOf (e : GraphEdge) : String × String := (e.source, e.target)

/-- Edges among modules of known ids, all inferred or all evidence. -/
structure EdgesAmong (ids : List String) (inferred : Bool) (es : List GraphEdge) : Prop where
  known : ∀ e ∈ es, e.source ∈ ids ∧ e.target ∈ ids
  irreflexive : ∀ e ∈ es, e.source ≠ e.target
  distinct : (es.map endsOf).Nodup
  inferred : ∀ e ∈ es, e.inferred = inferred

theorem EdgesAmong.take {ids : List String} {inferred : Bool} {es : List GraphEdge}
    (h : EdgesAmong ids inferred es) (n : Nat) : EdgesAmong ids inferred (es.take n) where
  known e he := h.known e (List.mem_of_mem_take he)
  irreflexive e he := h.irreflexive e (List.mem_of_mem_take he)
  distinct := h.distinct.sublist ((List.take_sublist n es).map endsOf)
  inferred e he := h.inferred e (List.mem_of_mem_take he)

/-- The imports of a file lead to each other file once. -/
theorem nodup_ends_edgesTo (known : List String) (path : String) (specifiers : List String) :
    ((edgesTo path (importedBy known path specifiers)).map endsOf).Nodup := by
  rw [edgesTo, List.map_map]
  exact (nodup_eraseDups _).map fun s t h => (Prod.mk.inj h).2

/-- The links of files with distinct paths are evidence and join known modules. -/
theorem linksOf_edgesAmong (c : Classification) (scan : Scanner) {files : List SourceFile}
    (h : (files.map (·.path)).Nodup) :
    EdgesAmong (files.map (·.path)) false (linksOf c scan (files.map (·.path)) files).edges := by
  have hmem : ∀ e ∈ (linksOf c scan (files.map (·.path)) files).edges, ∃ f ∈ files,
      e.source = f.path ∧
      e.target ∈ importedBy (files.map (·.path)) f.path (specifiersIn c scan f) ∧
        e.inferred = false := by
    intro e he
    obtain ⟨f, hf, hm⟩ := List.mem_flatMap.1 he
    exact ⟨f, hf, mem_edgesTo.1 hm⟩
  refine ⟨fun e he => ?_, fun e he => ?_, ?_, fun e he => ?_⟩
  · obtain ⟨f, hf, hsource, htarget, -⟩ := hmem e he
    obtain ⟨-, s, -, -, hres⟩ := mem_importedBy.1 htarget
    exact ⟨hsource ▸ List.mem_map_of_mem hf, Resolve.resolve?_mem hres⟩
  · obtain ⟨f, -, hsource, htarget, -⟩ := hmem e he
    rw [hsource]
    exact Ne.symm (mem_importedBy.1 htarget).1
  · rw [linksOf, List.map_flatMap, List.nodup_flatMap]
    refine ⟨fun f _ => nodup_ends_edgesTo _ _ _, (List.pairwise_map.1 h).imp fun {f g} hne => ?_⟩
    -- The edges of two files differ in where they start.
    rintro ⟨s, t⟩ hf hg
    obtain ⟨e, he, hes⟩ := List.mem_map.1 hf
    obtain ⟨e', he', hes'⟩ := List.mem_map.1 hg
    have hs : e.source = s := (Prod.mk.inj hes).1
    have hs' : e'.source = s := (Prod.mk.inj hes').1
    rw [(mem_edgesTo.1 he).1] at hs
    rw [(mem_edgesTo.1 he').1] at hs'
    exact hne (hs.trans hs'.symm)
  · obtain ⟨-, -, -, -, hinferred⟩ := hmem e he
    exact hinferred

/-- The ids of the nodes of a role. -/
def idsOf (role : Role) (nodes : List GraphNode) : List String :=
  (nodes.filter (·.role == role)).map (·.id)

/-- Every edge that some pattern suggests, in order. -/
def patternEdges (nodes : List GraphNode) : List GraphEdge :=
  inferredPatterns.flatMap fun (source, target) =>
    (idsOf source nodes).flatMap fun s => (idsOf target nodes).map fun t => ⟨s, t, true⟩

theorem mem_idsOf {role : Role} {nodes : List GraphNode} {id : String} :
    id ∈ idsOf role nodes ↔ ∃ n ∈ nodes, n.role = role ∧ n.id = id := by
  simp [idsOf, and_assoc]

/-- Where ids are distinct, an id has one role. -/
theorem role_eq_of_mem_idsOf {nodes : List GraphNode} (h : (nodes.map (·.id)).Nodup) {r r' : Role}
    {id : String} (hr : id ∈ idsOf r nodes) (hr' : id ∈ idsOf r' nodes) : r = r' := by
  obtain ⟨n, hn, rfl, rfl⟩ := mem_idsOf.1 hr
  obtain ⟨n', hn', rfl, hid⟩ := mem_idsOf.1 hr'
  rw [List.inj_on_of_nodup_map h hn' hn hid]

/-- The edges that one pattern of roles suggests. -/
def roleEdges (nodes : List GraphNode) (pattern : Role × Role) : List GraphEdge :=
  (idsOf pattern.1 nodes).flatMap fun s => (idsOf pattern.2 nodes).map fun t => ⟨s, t, true⟩

theorem patternEdges_eq (nodes : List GraphNode) :
    patternEdges nodes = inferredPatterns.flatMap (roleEdges nodes) :=
  rfl

theorem mem_roleEdges {nodes : List GraphNode} {pattern : Role × Role} {e : GraphEdge} :
    e ∈ roleEdges nodes pattern ↔
      e.source ∈ idsOf pattern.1 nodes ∧ e.target ∈ idsOf pattern.2 nodes ∧ e.inferred = true := by
  obtain ⟨s, t, i⟩ := e
  simp only [roleEdges, List.mem_flatMap, List.mem_map, GraphEdge.mk.injEq]
  constructor
  · rintro ⟨s', hs, t', ht, rfl, rfl, rfl⟩
    exact ⟨hs, ht, rfl⟩
  · rintro ⟨hs, ht, rfl⟩
    exact ⟨s, hs, t, ht, rfl, rfl, rfl⟩

theorem map_endsOf_roleEdges (nodes : List GraphNode) (pattern : Role × Role) :
    (roleEdges nodes pattern).map endsOf = idsOf pattern.1 nodes ×ˢ idsOf pattern.2 nodes := by
  simp only [roleEdges, List.map_flatMap, List.map_map]
  rfl

theorem nodup_idsOf {nodes : List GraphNode} (h : (nodes.map (·.id)).Nodup) (role : Role) :
    (idsOf role nodes).Nodup :=
  h.sublist (List.filter_sublist.map _)

/-- The edges that roles suggest are inferred and join known modules. -/
theorem patternEdges_edgesAmong {nodes : List GraphNode} (h : (nodes.map (·.id)).Nodup) :
    EdgesAmong (nodes.map (·.id)) true (patternEdges nodes) := by
  have hmem : ∀ e ∈ patternEdges nodes, ∃ pattern ∈ inferredPatterns,
      e ∈ roleEdges nodes pattern := by
    intro e he
    rw [patternEdges_eq] at he
    exact List.mem_flatMap.1 he
  refine ⟨fun e he => ?_, fun e he heq => ?_, ?_, fun e he => ?_⟩
  · obtain ⟨pattern, -, hm⟩ := hmem e he
    obtain ⟨hs, ht, -⟩ := mem_roleEdges.1 hm
    obtain ⟨m, hm, -, hsid⟩ := mem_idsOf.1 hs
    obtain ⟨n, hn, -, htid⟩ := mem_idsOf.1 ht
    exact ⟨List.mem_map.2 ⟨m, hm, hsid⟩, List.mem_map.2 ⟨n, hn, htid⟩⟩
  · obtain ⟨pattern, hp, hm⟩ := hmem e he
    obtain ⟨hs, ht, -⟩ := mem_roleEdges.1 hm
    have hroles : ∀ p ∈ inferredPatterns, p.1 ≠ p.2 := by decide
    exact hroles pattern hp (role_eq_of_mem_idsOf h hs (heq ▸ ht))
  · rw [patternEdges_eq, List.map_flatMap, List.nodup_flatMap]
    refine ⟨fun pattern _ => ?_, ?_⟩
    · rw [map_endsOf_roleEdges]
      exact (nodup_idsOf h _).product (nodup_idsOf h _)
    · -- Edges of two patterns differ in the role of an end.
      have hpatterns : inferredPatterns.Nodup := by decide
      refine hpatterns.imp fun {p q} hne => ?_
      rintro ⟨s, t⟩ hp hq
      simp only [map_endsOf_roleEdges, List.mem_product] at hp hq
      exact hne (Prod.ext (role_eq_of_mem_idsOf h hp.1 hq.1) (role_eq_of_mem_idsOf h hp.2 hq.2))
  · obtain ⟨pattern, -, hm⟩ := hmem e he
    exact (mem_roleEdges.1 hm).2.2

theorem chainEdges_cons_cons (a b : GraphNode) (rest : List GraphNode) :
    chainEdges (a :: b :: rest) = ⟨a.id, b.id, true⟩ :: chainEdges (b :: rest) := rfl

/-- A chain of neighbours is inferred and joins known modules. -/
theorem chainEdges_edgesAmong {nodes : List GraphNode} (h : (nodes.map (·.id)).Nodup) :
    EdgesAmong (nodes.map (·.id)) true (chainEdges nodes) := by
  match nodes with
  | [] => exact ⟨by simp [chainEdges], by simp [chainEdges], List.nodup_nil, by simp [chainEdges]⟩
  | [_] => exact ⟨by simp [chainEdges], by simp [chainEdges], List.nodup_nil, by simp [chainEdges]⟩
  | a :: b :: rest =>
    rw [List.map_cons, List.nodup_cons] at h
    have ih := chainEdges_edgesAmong h.2
    rw [chainEdges_cons_cons]
    refine ⟨fun e he => ?_, fun e he => ?_, ?_, fun e he => ?_⟩
    · rcases List.mem_cons.1 he with rfl | he
      · simp
      · have hknown := ih.known e he
        exact ⟨List.mem_cons_of_mem _ hknown.1, List.mem_cons_of_mem _ hknown.2⟩
    · rcases List.mem_cons.1 he with rfl | he
      · intro hab
        have hid : a.id = b.id := hab
        exact h.1 (hid ▸ List.mem_cons_self ..)
      · exact ih.irreflexive e he
    · -- The first module starts no later edge.
      rw [List.map_cons, List.nodup_cons]
      refine ⟨fun hm => ?_, ih.distinct⟩
      obtain ⟨e, he, hends⟩ := List.mem_map.1 hm
      have hsource : e.source = a.id := (Prod.mk.inj hends).1
      exact h.1 (hsource ▸ (ih.known e he).1)
    · rcases List.mem_cons.1 he with rfl | he
      · rfl
      · exact ih.inferred e he

/-- Where one step adds to the head of a list what fits under a cap, so do the steps of a fold. -/
theorem foldl_take {α β : Type} {n : Nat} (step : List β → α → List β) {f : α → List β}
    (hstep : ∀ ys a, step (ys.take n) a = (ys ++ f a).take n) (xs : List α) (ys : List β) :
    xs.foldl step (ys.take n) = (ys ++ xs.flatMap f).take n := by
  induction xs generalizing ys with
  | nil => rw [List.foldl_nil, List.flatMap_nil, List.append_nil]
  | cons x xs ih => rw [List.foldl_cons, hstep, ih, List.flatMap_cons, List.append_assoc]

/-- Joining a source to targets until the cap is reached keeps the head of what joining it
to all of them gives. -/
theorem joinAll_take (cap : Int) (s : GraphNode) (edges : List GraphEdge) (ts : List GraphNode) :
    joinAll cap s (edges.take cap.toNat) ts =
      (edges ++ ts.map fun t => (⟨s.id, t.id, true⟩ : GraphEdge)).take cap.toNat := by
  induction ts generalizing edges with
  | nil => rw [joinAll, List.map_nil, List.append_nil]
  | cons t ts ih =>
    rw [joinAll, List.length_take]
    split_ifs with hfull
    · -- At the cap the head is not changed by what comes later.
      rw [List.take_append_of_le_length (by omega)]
    · have hroom : edges.length < cap.toNat := by omega
      have hnext : edges.take cap.toNat ++ [(⟨s.id, t.id, true⟩ : GraphEdge)] =
          (edges ++ [(⟨s.id, t.id, true⟩ : GraphEdge)]).take cap.toNat := by
        rw [List.take_of_length_le (by omega), List.take_of_length_le (by simp; omega)]
      rw [hnext, ih, List.map_cons, List.append_assoc, List.singleton_append]

/-- The group of a role holds the nodes of this role in order. -/
theorem lookup_byRole (role : Role) (nodes : List GraphNode) :
    ((byRole nodes).lookup role).getD [] = nodes.filter (·.role == role) := by
  rw [byRole, Keyed.foldl_modify_group, Keyed.lookup_map]
  split_ifs with h
  · rfl
  · rw [Option.getD_none, eq_comm, List.filter_eq_nil_iff]
    intro n hn hrole
    refine h (List.elem_iff.2 (List.mem_eraseDups.2 (List.mem_map.2 ⟨n, hn, ?_⟩)))
    exact beq_iff_eq.1 hrole

/-- Joining two roles until the cap is reached keeps the head of what the pattern suggests. -/
theorem joinRoles_take (cap : Int) (nodes : List GraphNode) (edges : List GraphEdge)
    (pattern : Role × Role) :
    joinRoles cap (byRole nodes) (edges.take cap.toNat) pattern =
      (edges ++ roleEdges nodes pattern).take cap.toNat := by
  unfold joinRoles
  dsimp only
  rw [foldl_take _ fun edges s => joinAll_take cap s edges _, lookup_byRole, lookup_byRole]
  simp only [roleEdges, idsOf, List.flatMap_map, List.map_map]
  rfl

/-- **The loops keep a head of the product.** Leaving the innermost loop at the cap, while the outer
loops go on, gives the first edges that the patterns suggest. -/
theorem patternLinks_eq_take (cap : Int) (nodes : List GraphNode) :
    patternLinks cap nodes = (patternEdges nodes).take cap.toNat := by
  have hall := foldl_take _ (joinRoles_take cap nodes) inferredPatterns []
  rwa [List.take_nil, List.nil_append] at hall

/-- The inferred edges are a head of those that the patterns suggest, or of the chain where
the patterns give none. -/
theorem fallbackLinks_eq (l : Limits) (nodes : List GraphNode) :
    fallbackLinks l nodes =
      if (patternEdges nodes).take l.fallbackEdges.toNat = [] then
        (chainEdges nodes).take l.fallbackChain.toNat
      else (patternEdges nodes).take l.fallbackEdges.toNat := by
  unfold fallbackLinks
  dsimp only
  rw [patternLinks_eq_take]
  simp only [List.isEmpty_iff]

/-- The inferred edges within any limits join known modules. -/
theorem fallbackLinks_edgesAmong (l : Limits) {nodes : List GraphNode}
    (h : (nodes.map (·.id)).Nodup) :
    EdgesAmong (nodes.map (·.id)) true (fallbackLinks l nodes) := by
  rw [fallbackLinks_eq]
  split
  · exact (chainEdges_edgesAmong h).take _
  · exact (patternEdges_edgesAmong h).take _

/-- Two modules are never left without an edge where the limits leave room for a chain. -/
theorem fallbackLinks_ne_nil {l : Limits} (hchain : 0 < l.fallbackChain) {nodes : List GraphNode}
    (h : 2 ≤ nodes.length) : fallbackLinks l nodes ≠ [] := by
  rw [fallbackLinks_eq]
  split
  · match nodes with
    | a :: b :: rest =>
      rw [chainEdges_cons_cons]
      obtain ⟨n, hn⟩ : ∃ n, l.fallbackChain.toNat = n + 1 := ⟨l.fallbackChain.toNat - 1, by omega⟩
      rw [hn, List.take_succ_cons]
      exact List.cons_ne_nil _ _
  · assumption

end GraphBuild
end CodeSurvey
