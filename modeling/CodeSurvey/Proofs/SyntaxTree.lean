/-
# Walks of syntax trees

The walk with a stack lists the nodes in the order of the recursion on the tree
(`walk_eq_preorder`), and so does the listing with parents (`map_snd_withParents`). A walk that
skips subtrees finds what the whole walk finds, in the same order, if no subtree that it skips holds
any of it (`filter_walkStack`).

The nodes of a subtree stand together among the nodes of the tree (`preorder_infix_preorder`), so a
count over a subtree is no greater than over the tree.
-/

import CodeSurvey.SyntaxTree
import Mathlib.Data.List.Infix

namespace CodeSurvey
namespace SyntaxTree

theorem preorders_eq_flatMap (ts : List SyntaxTree) : preorders ts = ts.flatMap preorder := by
  induction ts with
  | nil => rfl
  | cons t ts ih => rw [preorders, ih, List.flatMap_cons]

/-- A node stands before the nodes below it. -/
theorem preorder_eq (t : SyntaxTree) : t.preorder = t :: t.children.flatMap preorder := by
  obtain ⟨l, cs⟩ := t
  rw [preorder, preorders_eq_flatMap]
  rfl

theorem mem_preorder_self (t : SyntaxTree) : t ∈ t.preorder := by
  rw [preorder_eq]
  exact List.mem_cons_self ..

/-- The nodes below a child are below its parent. -/
theorem preorder_subset_of_mem_children {t c : SyntaxTree} (h : c ∈ t.children) :
    c.preorder ⊆ t.preorder := by
  intro u hu
  rw [preorder_eq]
  exact List.mem_cons_of_mem t (List.mem_flatMap.2 ⟨c, h, hu⟩)

/-- Skipping children without what is looked for changes nothing of what is found. -/
theorem filter_flatMap_preorder_filter {keep p : SyntaxTree → Bool} {ts : List SyntaxTree}
    (h : ∀ t ∈ ts, ∀ u ∈ t.preorder, p u → keep t) :
    ((ts.filter keep).flatMap preorder).filter p = (ts.flatMap preorder).filter p := by
  induction ts with
  | nil => rfl
  | cons t ts ih =>
    have hrest := ih fun u hu => h u (List.mem_cons_of_mem t hu)
    rw [List.flatMap_cons, List.filter_append, ← hrest, List.filter_cons]
    split_ifs with hkeep
    · rw [List.flatMap_cons, List.filter_append]
    · have hnone : t.preorder.filter p = [] :=
        List.filter_eq_nil_iff.2 fun u hu hp => hkeep (h t (List.mem_cons_self ..) u hu hp)
      rw [hnone, List.nil_append]

/-- **A pruned walk misses nothing.** If every node with something looked for in its subtree is
kept, the walk finds it all, in the order of the whole tree. -/
theorem filter_walkStack {keep p : SyntaxTree → Bool} {stack : List SyntaxTree}
    (h : ∀ t ∈ stack.flatMap preorder, ∀ u ∈ t.preorder, p u → keep t) :
    (walkStack keep stack).filter p = (stack.flatMap preorder).filter p := by
  induction stack using walkStack.induct keep with
  | case1 => rw [walkStack, List.flatMap_nil]
  | case2 t rest ih =>
    have hchildren : ∀ c ∈ t.children, c.preorder ⊆ (t :: rest).flatMap preorder := fun c hc =>
      List.Subset.trans (preorder_subset_of_mem_children hc) (List.subset_append_left ..)
    have hbelow : ∀ u ∈ (t.children.filter keep ++ rest).flatMap preorder,
        u ∈ (t :: rest).flatMap preorder := by
      intro u hu
      rw [List.flatMap_append, List.mem_append, List.mem_flatMap] at hu
      rcases hu with ⟨c, hc, hu⟩ | hu
      · exact hchildren c (List.mem_filter.1 hc).1 hu
      · exact List.mem_append_right _ hu
    have hskip : ((t.children.filter keep).flatMap preorder).filter p =
        (t.children.flatMap preorder).filter p :=
      filter_flatMap_preorder_filter fun c hc => h c (hchildren c hc (mem_preorder_self c))
    rw [walkStack, List.filter_cons, ih fun u hu => h u (hbelow u hu), List.flatMap_append,
      List.filter_append, hskip, List.flatMap_cons, preorder_eq t, List.cons_append,
      List.filter_cons, List.filter_append]

/-- The walk with a stack lists the nodes in the order of the recursion. -/
theorem walk_eq_preorder (t : SyntaxTree) : t.walk = t.preorder := by
  have hall : (walkStack (fun _ => true) [t]).filter (fun _ => true) =
      ([t].flatMap preorder).filter fun _ => true :=
    filter_walkStack fun _ _ _ _ _ => rfl
  rw [List.filter_eq_self.2 fun _ _ => rfl, List.filter_eq_self.2 fun _ _ => rfl,
    List.flatMap_singleton] at hall
  exact hall

mutual

/-- The listing with parents lists the nodes in the order of the recursion. -/
theorem map_snd_withParents (parent : Option SyntaxTree) :
    ∀ t : SyntaxTree, (withParents parent t).map Prod.snd = t.preorder
  | node l cs => by rw [withParents, List.map_cons, map_snd_allWithParents, preorder]

/-- The children of a node are listed with it in the order of the recursion. -/
theorem map_snd_allWithParents (parent : SyntaxTree) :
    ∀ ts : List SyntaxTree, (allWithParents parent ts).map Prod.snd = preorders ts
  | [] => rfl
  | t :: ts => by
    rw [allWithParents, List.map_append, map_snd_withParents, map_snd_allWithParents, preorders]

end

mutual

/-- The nodes of a subtree stand together among the nodes of the tree. -/
theorem preorder_infix_preorder {t : SyntaxTree} :
    ∀ {root : SyntaxTree}, t ∈ root.preorder → t.preorder <:+: root.preorder
  | node l cs, h => by
    rw [preorder, List.mem_cons] at h
    rcases h with rfl | h
    · exact List.infix_rfl
    · rw [preorder]
      exact List.infix_cons (preorder_infix_preorders h)

/-- The nodes of a subtree stand together among the nodes of several trees. -/
theorem preorder_infix_preorders {t : SyntaxTree} :
    ∀ {ts : List SyntaxTree}, t ∈ preorders ts → t.preorder <:+: preorders ts
  | [], h => absurd h List.not_mem_nil
  | u :: ts, h => by
    rw [preorders, List.mem_append] at h
    rw [preorders]
    rcases h with h | h
    · exact (preorder_infix_preorder h).trans (List.prefix_append ..).isInfix
    · exact (preorder_infix_preorders h).trans (List.suffix_append ..).isInfix

end

mutual

/-- There are as many nodes as the size of the tree. -/
theorem length_preorder : ∀ t : SyntaxTree, t.preorder.length = t.size
  | node l cs => by rw [preorder, List.length_cons, length_preorders, size, Nat.add_comm]

/-- There are as many nodes as the size of the trees. -/
theorem length_preorders : ∀ ts : List SyntaxTree, (preorders ts).length = sizes ts
  | [] => rfl
  | t :: ts => by rw [preorders, List.length_append, length_preorder, length_preorders, sizes]

end

end SyntaxTree
end CodeSurvey
