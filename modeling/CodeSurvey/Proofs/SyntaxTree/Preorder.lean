/-
# A walk visits every node once, in the order of the tree

Equal subtrees can stand at several places of a tree, so a node is known by its place: the
numbers of the children on the way down to it. `SyntaxTree.Leads` says which node stands where,
and which places are reached over nodes that pass a test. A list of nodes is in preorder if it
goes through the places that are reached in their lexicographic order
(`SyntaxTree.IsPreorder`); this leaves one list.

The walk with a stack lists the nodes with their places (`SyntaxTree.walkStack_eq`), and these are
all places, each one before those behind it (`SyntaxTree.mem_placed`, `SyntaxTree.pairwise_placed`).
So a walk is in preorder, also one that keeps to a part of the tree, and what it lists there are the
nodes of the tree that has no other part (`SyntaxTree.pruned`).

A node and what is below each child of it make up what is below it and itself, so complexities add
up (`SyntaxTree.cyclomaticComplexity_eq_add_sum`).
-/

import CodeSurvey.Complexity
import CodeSurvey.Proofs.SyntaxTree
import CodeSurvey.Total
import Mathlib.Algebra.BigOperators.Group.List.Basic
import Mathlib.Data.List.Forall2

namespace CodeSurvey
namespace SyntaxTree

variable {keep : SyntaxTree → Bool} {t u : SyntaxTree} {cs : List SyntaxTree} {p : List Nat}

/-- Whether a node stands at a place of a tree that is reached over nodes that pass the
test, the root apart. -/
inductive Leads (keep : SyntaxTree → Bool) : SyntaxTree → List Nat → SyntaxTree → Prop
  | root (t : SyntaxTree) : Leads keep t [] t
  | child {t c u : SyntaxTree} {i : Nat} {p : List Nat} (hc : t.children[i]? = some c)
      (hkeep : keep c = true)
      (h : Leads keep c p u) : Leads keep t (i :: p) u

/-- Whether nodes are those at the places that are reached, in the
lexicographic order of the places. -/
def IsPreorder (keep : SyntaxTree → Bool) (t : SyntaxTree) (nodes : List SyntaxTree) : Prop :=
  ∃ places : List (List Nat), places.Pairwise (· < ·) ∧ (∀ p, p ∈ places ↔ ∃ u, Leads keep t p u) ∧
    List.Forall₂ (Leads keep t) places nodes

mutual

/-- The tree without the subtrees whose root fails the test, its own root apart. -/
def pruned (keep : SyntaxTree → Bool) : SyntaxTree → SyntaxTree
  | node l cs => node l (allPruned keep cs)

/-- The trees that pass the test, without the subtrees that fail it. -/
def allPruned (keep : SyntaxTree → Bool) : List SyntaxTree → List SyntaxTree
  | [] => []
  | t :: ts => if keep t then pruned keep t :: allPruned keep ts else allPruned keep ts

end

mutual

/-- The nodes that are reached, each with its place. -/
def placed (keep : SyntaxTree → Bool) : SyntaxTree → List (List Nat × SyntaxTree)
  | node l cs => ([], node l cs) :: allPlaced keep 0 cs

/-- The nodes that are reached below some children of a node, which are counted from `i`. -/
def allPlaced (keep : SyntaxTree → Bool) (i : Nat) : List SyntaxTree → List (List Nat × SyntaxTree)
  | [] => []
  | t :: ts =>
    (if keep t then (placed keep t).map fun x => (i :: x.1, x.2) else []) ++
      allPlaced keep (i + 1) ts

end

theorem placed_eq (t : SyntaxTree) : placed keep t = ([], t) :: allPlaced keep 0 t.children := by
  obtain ⟨l, cs⟩ := t
  rw [placed, children]

theorem map_snd_allPlaced (i : Nat) (cs : List SyntaxTree) :
    (allPlaced keep i cs).map Prod.snd = (cs.filter keep).flatMap fun c =>
      (placed keep c).map Prod.snd := by
  induction cs generalizing i with
  | nil => rw [allPlaced, List.filter_nil, List.flatMap_nil, List.map_nil]
  | cons c cs ih =>
    rw [allPlaced, List.map_append, ih, List.filter_cons]
    split_ifs
    · rw [List.flatMap_cons, List.map_map]
      rfl
    · rfl

/-- **The walk with a stack** lists the nodes of its trees, one tree after the other. -/
theorem walkStack_eq (keep : SyntaxTree → Bool) (stack : List SyntaxTree) :
    walkStack keep stack = stack.flatMap fun t => (placed keep t).map Prod.snd := by
  induction stack using walkStack.induct keep with
  | case1 => rw [walkStack, List.flatMap_nil]
  | case2 t rest ih =>
    rw [walkStack, ih, List.flatMap_append, List.flatMap_cons, placed_eq, List.map_cons,
      map_snd_allPlaced, List.cons_append]

mutual

/-- The nodes that are listed with a place are those that are reached there. -/
theorem mem_placed :
    ∀ {t : SyntaxTree} {p : List Nat} {u : SyntaxTree}, (p, u) ∈ placed keep t ↔ Leads keep t p u
  | node l cs, p, u => by
    rw [placed, List.mem_cons, mem_allPlaced]
    constructor
    · rintro (h | ⟨j, c, q, rfl, hc, hkeep, h⟩)
      · cases h
        exact .root _
      · exact .child (by rwa [Nat.zero_add]) hkeep h
    · rintro (_ | ⟨hc, hkeep, h⟩)
      · exact .inl rfl
      · exact .inr ⟨_, _, _, by rw [Nat.zero_add], hc, hkeep, h⟩

/-- The nodes that are listed below some children are those that are reached below one of them. -/
theorem mem_allPlaced : ∀ {cs : List SyntaxTree} {i : Nat} {p : List Nat} {u : SyntaxTree},
    (p, u) ∈ allPlaced keep i cs ↔ ∃ j c q, p = (i + j) :: q ∧ cs[j]? = some c ∧ keep c = true ∧
      Leads keep c q u
  | [], i, p, u => by simp [allPlaced]
  | t :: ts, i, p, u => by
    have hfirst : (p, u) ∈ (if keep t then (placed keep t).map fun x => (i :: x.1, x.2) else []) ↔
        ∃ q, p = i :: q ∧ keep t = true ∧ Leads keep t q u := by
      split_ifs with hkeep
      · simp only [List.mem_map, Prod.exists, Prod.mk.injEq, mem_placed]
        constructor
        · rintro ⟨q, v, h, rfl, rfl⟩
          exact ⟨q, rfl, hkeep, h⟩
        · rintro ⟨q, rfl, -, h⟩
          exact ⟨q, u, h, rfl, rfl⟩
      · simp [hkeep]
    rw [allPlaced, List.mem_append, hfirst, mem_allPlaced]
    constructor
    · rintro (⟨q, rfl, hkeep, h⟩ | ⟨j, c, q, rfl, hc, hkeep, h⟩)
      · exact ⟨0, t, q, rfl, rfl, hkeep, h⟩
      · exact ⟨j + 1, c, q, by rw [Nat.add_right_comm, Nat.add_assoc], hc, hkeep, h⟩
    · rintro ⟨j, c, q, rfl, hc, hkeep, h⟩
      cases j with
      | zero =>
        obtain rfl := Option.some.inj hc
        exact .inl ⟨q, rfl, hkeep, h⟩
      | succ j => exact .inr ⟨j, c, q, by rw [Nat.add_right_comm, Nat.add_assoc], hc, hkeep, h⟩

end

mutual

/-- The places are listed in lexicographic order. -/
theorem pairwise_placed (keep : SyntaxTree → Bool) : ∀ t :
    SyntaxTree, (placed keep t).Pairwise fun x y => x.1 < y.1
  | node l cs => by
    rw [placed, List.pairwise_cons]
    refine ⟨fun ⟨p, u⟩ h => ?_, pairwise_allPlaced keep 0 cs⟩
    obtain ⟨j, c, q, rfl, -⟩ := mem_allPlaced.1 h
    exact List.nil_lt_cons ..

/-- The places below some children of a node are listed in lexicographic order. -/
theorem pairwise_allPlaced (keep : SyntaxTree → Bool) (i : Nat) :
    ∀ cs : List SyntaxTree, (allPlaced keep i cs).Pairwise fun x y => x.1 < y.1
  | [] => by
    rw [allPlaced]
    exact List.Pairwise.nil
  | t :: ts => by
    have hfirst : (if keep t then (placed keep t).map fun x => (i :: x.1, x.2) else []).Pairwise
        fun x y => x.1 < y.1 := by
      split_ifs
      · refine List.pairwise_map.2 ((pairwise_placed keep t).imp fun h => ?_)
        exact List.cons_lt_cons_iff.2 (.inr ⟨rfl, h⟩)
      · exact List.Pairwise.nil
    rw [allPlaced, List.pairwise_append]
    refine ⟨hfirst, pairwise_allPlaced keep (i + 1) ts, ?_⟩
    -- What is below the first child has its number, what is below later ones a greater number.
    rintro x hx ⟨p, u⟩ hy
    obtain ⟨j, c, q, rfl, -⟩ := mem_allPlaced.1 hy
    split_ifs at hx
    · obtain ⟨y, -, rfl⟩ := List.mem_map.1 hx
      exact List.cons_lt_cons_iff.2 (.inl (by omega))
    · cases hx

end

/-- **A walk is in preorder.** -/
theorem isPreorder_walkStack (keep : SyntaxTree → Bool) (t : SyntaxTree) :
    IsPreorder keep t (walkStack keep [t]) := by
  refine ⟨(placed keep t).map Prod.fst, List.pairwise_map.2 (pairwise_placed keep t),
    fun p => ?_, ?_⟩
  · simp only [List.mem_map, Prod.exists, exists_and_right, exists_eq_right, mem_placed]
  · rw [walkStack_eq, List.flatMap_singleton, List.forall₂_map_left_iff, List.forall₂_map_right_iff,
      List.forall₂_same]
    exact fun x hx => mem_placed.1 hx

mutual

/-- The nodes that are reached, each without what is not reached below it, are those of the tree
without what is not reached. -/
theorem map_pruned_placed (keep : SyntaxTree → Bool) :
    ∀ t : SyntaxTree, (placed keep t).map (fun x => pruned keep x.2) = (pruned keep t).preorder
  | node l cs => by rw [placed, List.map_cons, map_pruned_allPlaced, pruned, preorder]

/-- The same below some children of a node. -/
theorem map_pruned_allPlaced (keep : SyntaxTree → Bool) (i : Nat) :
    ∀ cs : List SyntaxTree, (allPlaced keep i cs).map (fun x => pruned keep x.2) =
      preorders (allPruned keep cs)
  | [] => by rw [allPlaced, allPruned, preorders, List.map_nil]
  | t :: ts => by
    rw [allPlaced, List.map_append, map_pruned_allPlaced, allPruned]
    split_ifs
    · rw [List.map_map, preorders, ← map_pruned_placed]
      rfl
    · rfl

end

/-- A pruned walk lists the nodes of the pruned tree, in the order of the recursion. -/
theorem map_pruned_walkStack (keep : SyntaxTree → Bool) (t : SyntaxTree) :
    (walkStack keep [t]).map (pruned keep) = (pruned keep t).preorder := by
  rw [walkStack_eq, List.flatMap_singleton, List.map_map, ← map_pruned_placed]
  rfl

/-- The complexity of a tree is one more than what its root and the trees below it add to it. -/
theorem cyclomaticComplexity_eq_add_sum (r : BranchRules) (t : SyntaxTree) :
    cyclomaticComplexity r t =
      1 + (if r.counts t then 1 else 0) +
        total (t.children.map fun c => cyclomaticComplexity r c - 1) := by
  have hbelow : (t.children.map fun c => cyclomaticComplexity r c - 1) =
      t.children.map (List.countP r.counts ∘ preorder) := by
    refine List.map_congr_left fun c _ => ?_
    rw [cyclomaticComplexity, Nat.add_sub_cancel_left, walk_eq_preorder, Function.comp_apply]
  rw [cyclomaticComplexity, walk_eq_preorder, preorder_eq, List.countP_cons,
    List.countP_flatMap, hbelow, Nat.add_comm (List.sum _), Nat.add_assoc]
  rfl

/-- **The walks of a tree.** The walk with a stack ends after as many steps as there are nodes and
lists them as the recursion does, the node and then what is below each child from left to right: it
goes through all places, each once, in their order. The walk for faults goes through the places that
are reached over nodes with a fault, in their order, which are the nodes of the tree without the
others. So the complexity of a tree adds up from its root and the trees below it. -/
theorem walks_preorder (t : SyntaxTree) :
    (t.walk = t.preorder ∧ t.walk.length = t.size ∧ IsPreorder (fun _ => true) t t.walk) ∧
    (t.walkFaults.map (pruned hasFault) = (pruned hasFault t).preorder ∧
      IsPreorder hasFault t t.walkFaults) ∧
    ∀ r : BranchRules, cyclomaticComplexity r t =
      1 + (if r.counts t then 1 else 0) +
        total (t.children.map fun c => cyclomaticComplexity r c - 1) := by
  refine ⟨⟨walk_eq_preorder t, ?_, isPreorder_walkStack _ t⟩,
    ⟨map_pruned_walkStack hasFault t, ?_⟩, fun r => ?_⟩
  · rw [walk_eq_preorder, length_preorder]
  · exact isPreorder_walkStack hasFault t
  · exact cyclomaticComplexity_eq_add_sum r t

end SyntaxTree
end CodeSurvey
