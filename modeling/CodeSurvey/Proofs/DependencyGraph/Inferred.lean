/-
# Inferred edges

Where no import leads anywhere, edges are inferred from the roles of the modules. They are the first
of all edges that the patterns suggest, pattern by pattern, source by source, as many as the cap
admits; if that is none, they are the first links of the chain of neighbours
(`fallbackLinks_exact`). The loops that make them look at the cap before each edge, but leave only
the loop over the targets, so `patternLinks_eq_take` is what makes a head of the product of them.

The chain has a link for each module but the last (`length_chainEdges`), and its links join
neighbours (`getElem?_chainEdges`).
-/

import CodeSurvey.Proofs.DependencyGraph.Edges

namespace CodeSurvey
namespace GraphBuild

theorem length_chainEdges (nodes : List GraphNode) :
    (chainEdges nodes).length = nodes.length - 1 := by
  rw [chainEdges, List.length_zipWith, List.length_tail]
  omega

/-- Each link of the chain joins a module to the next one. -/
theorem getElem?_chainEdges (nodes : List GraphNode) (i : Nat) :
    (chainEdges nodes)[i]? = nodes[i]?.bind fun a => nodes[i + 1]?.map fun b =>
      ⟨a.id, b.id, true⟩ := by
  rw [chainEdges, List.getElem?_zipWith, List.getElem?_tail]
  cases nodes[i]? <;> cases nodes[i + 1]? <;> rfl

/-- A cap beyond the end of the chain takes nothing more than the whole chain. -/
theorem take_chainEdges (cap : Nat) (nodes : List GraphNode) :
    (chainEdges nodes).take (min (nodes.length - 1) cap) = (chainEdges nodes).take cap := by
  rw [← length_chainEdges, Nat.min_comm, ← List.take_take, List.take_length]

/-- **Inferred edges are a head of the product of the patterns, or else of the chain.** Modules with
distinct ids are joined once and never to themselves, no cap is exceeded, and two modules are joined
if the chain may have a link. -/
theorem fallbackLinks_exact (l : Limits) (nodes : List GraphNode) :
    let product := (patternEdges nodes).take l.fallbackEdges.toNat
    let chain := (chainEdges nodes).take (min (nodes.length - 1) l.fallbackChain.toNat)
    fallbackLinks l nodes = (if product = [] ∧ 2 ≤ nodes.length then chain else product) ∧
      (∀ i < min (nodes.length - 1) l.fallbackChain.toNat,
        chain[i]? = nodes[i]?.bind fun a => nodes[i + 1]?.map fun b => ⟨a.id, b.id, true⟩) ∧
      (fallbackLinks l nodes).length ≤
        (if product = [] then min (nodes.length - 1) l.fallbackChain.toNat
          else l.fallbackEdges.toNat) ∧
      ((nodes.map (·.id)).Nodup →
        ((fallbackLinks l nodes).map endsOf).Nodup ∧ ∀ e ∈ fallbackLinks l nodes,
          e.source ≠ e.target) ∧
      (2 ≤ nodes.length → 1 ≤ l.fallbackChain → fallbackLinks l nodes ≠ []) := by
  intro product chain
  have hlinks : fallbackLinks l nodes = if product = [] then chain else product := by
    rw [fallbackLinks_eq]
    simp only [product, chain, take_chainEdges]
  refine ⟨?_, ?_, ?_, fun hids => ?_, fun htwo hchain => fallbackLinks_ne_nil (by omega) htwo⟩
  · rw [hlinks]
    by_cases hnone : product = []
    · by_cases htwo : 2 ≤ nodes.length
      · rw [if_pos hnone, if_pos ⟨hnone, htwo⟩]
      · -- Fewer than two modules have no neighbours.
        have hempty : chain = [] := by
          rw [← List.length_eq_zero_iff, List.length_take, length_chainEdges]
          omega
        rw [if_pos hnone, if_neg fun h => htwo h.2, hempty, hnone]
    · rw [if_neg hnone, if_neg fun h => hnone h.1]
  · intro i hi
    rw [← getElem?_chainEdges, List.getElem?_take_of_lt hi]
  · rw [hlinks]
    split_ifs
    · exact List.length_take_le _ _
    · exact List.length_take_le _ _
  · have hamong := fallbackLinks_edgesAmong l hids
    exact ⟨hamong.distinct, hamong.irreflexive⟩

/-- Two pages, two components, a service and a hook, with room for the edges of the first
pattern and one more. -/
theorem fallbackLinks_exact_of_boundary :
    let node (id : String) (role : Role) : GraphNode := ⟨id, id, role, role.layer⟩
    let nodes := [node "c" .component, node "p" .page, node "s" .service, node "q" .page,
      node "d" .component, node "h" .hook]
    let l : Limits := { fallbackEdges := 5 }
    (nodes.map (·.id)).Nodup ∧ 2 ≤ nodes.length ∧ 1 ≤ l.fallbackChain ∧
      (fallbackLinks l nodes).map endsOf =
        [("p", "c"), ("p", "d"), ("q", "c"), ("q", "d"), ("c", "s")] ∧
      (∀ e ∈ fallbackLinks l nodes, e.source ≠ e.target) ∧ fallbackLinks l nodes ≠ [] := by
  intro node nodes l
  have hids : (nodes.map (·.id)).Nodup := by decide
  have htwo : 2 ≤ nodes.length := by decide
  have hchain : 1 ≤ l.fallbackChain := by decide
  obtain ⟨hlinks, -, -, hdistinct, hsome⟩ := fallbackLinks_exact l nodes
  refine ⟨hids, htwo, hchain, ?_, (hdistinct hids).2, hsome htwo hchain⟩
  rw [hlinks]
  decide

end GraphBuild
end CodeSurvey
