/-
# Sorting

A list is in order after it was sorted if the comparison is transitive and total, as a
comparison of ranks is (`pairwise_mergeSort_of_rank`). It is enough that the comparison agrees
with such an order on the members of the list (`pairwise_mergeSort_of_agrees`), which matters
for numbers that may be undefined.

Sorting keeps the order of members that may stand either way (`filter_mergeSort_of_related`), as
members with one key do (`filter_mergeSort`, `sortedDown_mergeSort`). So what several passes over a
list found, each in order, stands member by member once it is sorted (`mergeSort_flatMap_flatMap`).

A list in strict order is known by its members (`eq_of_pairwise_of_mem_iff`), and two lists in the
strict order of their keys correspond if their members do (`forall₂_of_pairwise_key`). A set of
texts is shown as the list of them in order, each once (`Text.pairwise_sortedDistinct`), so it
depends on its members alone (`Text.sortedDistinct_congr`).
-/

import CodeSurvey.Text.Sorted
import Mathlib.Data.List.Basic
import Mathlib.Data.List.Forall2
import Mathlib.Data.List.Nodup
import Mathlib.Order.Lattice

namespace CodeSurvey

/-- Sorting by a comparison of ranks puts the members of a list in the order of their ranks. -/
theorem pairwise_mergeSort_of_rank {α β : Type} [LinearOrder β] {r : α → α → Bool} {rank : α → β}
    (h : ∀ a b, r a b ↔ rank a ≤ rank b) (xs : List α) :
    (xs.mergeSort r).Pairwise fun a b => rank a ≤ rank b := by
  have hsorted : (xs.mergeSort r).Pairwise fun a b => r a b := by
    refine List.pairwise_mergeSort (fun a b c hab hbc => ?_) (fun a b => ?_) xs
    · rw [h] at *
      exact le_trans hab hbc
    · rw [Bool.or_eq_true, h, h]
      exact le_total _ _
  exact hsorted.imp fun {a b} hab => (h a b).1 hab

/-- Sorting by a comparison that agrees with a transitive and total one on the members of a list
puts the list in order. -/
theorem pairwise_mergeSort_of_agrees {α : Type} {r s : α → α → Bool} {xs : List α}
    (h : ∀ a ∈ xs, ∀ b ∈ xs, r a b = s a b) (htrans : ∀ a b c, s a b → s b c → s a c)
    (htotal : ∀ a b, s a b || s b a) : (xs.mergeSort r).Pairwise fun a b => s a b := by
  have hsame : xs.mergeSort r = xs.mergeSort s := by
    have hmap := List.map_mergeSort h (f := id)
    rwa [List.map_id, List.map_id] at hmap
  rw [hsame]
  exact List.pairwise_mergeSort htrans htotal xs

/-- Lists in the same strict order that have the same members are equal. -/
theorem eq_of_pairwise_of_mem_iff {α : Type} {r : α → α → Prop} (hasymm : ∀ a b, r a b → ¬r b a)
    {xs ys : List α} (hxs : xs.Pairwise r) (hys : ys.Pairwise r) (h : ∀ a, a ∈ xs ↔ a ∈ ys) :
    xs = ys := by
  have hnodup : ∀ zs : List α, zs.Pairwise r → zs.Nodup := by
    intro zs hzs
    refine hzs.imp fun {a b} hab he => ?_
    subst he
    exact hasymm a a hab hab
  refine List.Perm.eq_of_pairwise (fun a b _ _ hab hba => absurd hba (hasymm a b hab)) hxs hys ?_
  exact (List.perm_ext_iff_of_nodup (hnodup xs hxs) (hnodup ys hys)).2 h

/-- Lists in the strict order of their keys correspond member by member if each member of one has
its like, with the same key, in the other. -/
theorem forall₂_of_pairwise_key {α κ : Type} {r : κ → κ → Prop} (hasymm : ∀ k l, r k l → ¬r l k)
    (keyOf : α → κ) {R : α → α → Prop} {xs ys : List α}
    (hxs : xs.Pairwise fun a b => r (keyOf a) (keyOf b)) (hys : ys.Pairwise fun a b =>
        r (keyOf a) (keyOf b)) (h : ∀ x ∈ xs, ∃ y ∈ ys, keyOf x = keyOf y ∧ R x y)
    (h' : ∀ y ∈ ys, ∃ x ∈ xs, keyOf x = keyOf y) : List.Forall₂ R xs ys := by
  have hkeys : xs.map keyOf = ys.map keyOf := by
    refine eq_of_pairwise_of_mem_iff hasymm (List.pairwise_map.2 hxs)
      (List.pairwise_map.2 hys) fun k => ?_
    rw [List.mem_map, List.mem_map]
    constructor
    · rintro ⟨x, hx, rfl⟩
      obtain ⟨y, hy, hxy, -⟩ := h x hx
      exact ⟨y, hy, hxy.symm⟩
    · rintro ⟨y, hy, rfl⟩
      exact h' y hy
  have hnodup : (ys.map keyOf).Nodup := by
    refine List.pairwise_map.2 (hys.imp fun {a b} hab he => ?_)
    rw [he] at hab
    exact hasymm _ _ hab hab
  have hpaired : List.Forall₂ (fun x y => keyOf x = keyOf y) xs ys := by
    rw [← List.forall₂_map_left_iff (R := fun k y => k = keyOf y),
      ← List.forall₂_map_right_iff (R := (· = ·)), List.forall₂_eq_eq_eq]
    exact hkeys
  rw [List.forall₂_iff_zip] at hpaired ⊢
  refine ⟨hpaired.1, fun {x y} hxy => ?_⟩
  obtain ⟨hx, hy⟩ := List.of_mem_zip hxy
  obtain ⟨z, hz, hxz, hR⟩ := h x hx
  rwa [List.inj_on_of_nodup_map hnodup hy hz ((hpaired.2 hxy).symm.trans hxz)]

/-- Members of which each two are in order either way keep their order when a list is sorted. -/
theorem filter_mergeSort_of_related {α : Type} {r : α → α → Bool}
    (htrans : ∀ a b c, r a b → r b c → r a c) (htotal : ∀ a b, r a b || r b a) {p : α → Bool}
    (h : ∀ a b, p a → p b → r a b) (xs : List α) : (xs.mergeSort r).filter p = xs.filter p := by
  have hsorted : (xs.filter p).Pairwise fun a b => r a b :=
    List.pairwise_of_forall_mem_list fun a ha b hb =>
      h a b (List.mem_filter.1 ha).2 (List.mem_filter.1 hb).2
  have hsub : (xs.filter p).Sublist (xs.mergeSort r) :=
    List.sublist_mergeSort htrans htotal hsorted List.filter_sublist
  have hfilter := hsub.filter p
  rw [List.filter_filter] at hfilter
  simp only [Bool.and_self] at hfilter
  exact (hfilter.eq_of_length ((List.mergeSort_perm _ _).filter _).length_eq.symm).symm

/-- Whether a list is another one by a key, the greatest first, members with
one key in their order. -/
structure SortedDown {α : Type} (key : α → Int) (xs ys : List α) : Prop where
  perm : ys.Perm xs
  ordered : ys.Pairwise fun a b => key b ≤ key a
  stable : ∀ k, ys.filter (key · == k) = xs.filter (key · == k)

/-- A list that was sorted by a key, the greatest first. -/
theorem sortedDown_mergeSort {α : Type} (key : α → Int) (xs : List α) :
    SortedDown key xs (xs.mergeSort fun a b => key b ≤ key a) := by
  have htrans : ∀ a b c : α, decide (key b ≤ key a) → decide (key c ≤ key b) →
      decide (key c ≤ key a) :=
    fun a b c hab hbc =>
      decide_eq_true (Int.le_trans (of_decide_eq_true hbc) (of_decide_eq_true hab))
  have htotal : ∀ a b : α, decide (key b ≤ key a) || decide (key a ≤ key b) := fun a b => by
    rw [← Bool.decide_or]
    exact decide_eq_true (Int.le_total _ _)
  refine ⟨List.mergeSort_perm _ _, (List.pairwise_mergeSort htrans htotal xs).imp of_decide_eq_true,
    fun k => ?_⟩
  refine filter_mergeSort_of_related htrans htotal (fun a b ha hb => ?_) xs
  exact decide_eq_true (Int.le_of_eq ((beq_iff_eq.1 hb).trans (beq_iff_eq.1 ha).symm))

/-- What is cut off a list by a key, the greatest first, has no greater key than what is kept. -/
theorem SortedDown.le_of_take_of_drop {α : Type} {key : α → Int} {xs ys : List α}
    (h : SortedDown key xs ys) (n : Nat) :
    ∀ kept ∈ ys.take n, ∀ cut ∈ ys.drop n, key cut ≤ key kept := by
  have hordered := h.ordered
  rw [← List.take_append_drop n ys, List.pairwise_append] at hordered
  exact hordered.2.2

section Stability

variable {α : Type} {key : α → Nat}

theorem key_le_trans (key : α → Nat) (a b c : α) (hab : decide (key a ≤ key b))
    (hbc : decide (key b ≤ key c)) : decide (key a ≤ key c) :=
  decide_eq_true (Nat.le_trans (of_decide_eq_true hab) (of_decide_eq_true hbc))

theorem key_le_total (key : α → Nat) (a b : α) :
    decide (key a ≤ key b) || decide (key b ≤ key a) := by
  rw [Bool.or_eq_true, decide_eq_true_eq, decide_eq_true_eq]
  exact Nat.le_total (key a) (key b)

/-- Members with one key keep their order when a list is sorted by its keys. -/
theorem filter_mergeSort (key : α → Nat) (xs : List α) (k : Nat) :
    (xs.mergeSort fun a b => key a ≤ key b).filter (key · == k) = xs.filter (key · == k) := by
  refine filter_mergeSort_of_related (key_le_trans key) (key_le_total key) (fun a b ha hb => ?_) xs
  exact decide_eq_true (Nat.le_of_eq ((beq_iff_eq.1 ha).trans (beq_iff_eq.1 hb).symm))

/-- Lists in the order of their keys are equal if for each key they have the same members with
it in the same order. -/
theorem eq_of_pairwise_of_filter_eq {xs ys : List α} (hxs : xs.Pairwise fun a b => key a ≤ key b)
    (hys : ys.Pairwise fun a b => key a ≤ key b)
    (h : ∀ k, xs.filter (key · == k) = ys.filter (key · == k)) : xs = ys := by
  have hmem : ∀ a, a ∈ xs ↔ a ∈ ys := by
    intro a
    have := congrArg (a ∈ ·) (h (key a))
    simpa only [List.mem_filter, BEq.rfl, and_true, eq_iff_iff] using this
  induction xs generalizing ys with
  | nil =>
    exact (List.eq_nil_iff_forall_not_mem.2 fun a ha => List.not_mem_nil ((hmem a).2 ha)).symm
  | cons x xs ih =>
    obtain ⟨y, ys, rfl⟩ :=
      List.exists_cons_of_ne_nil (List.ne_nil_of_mem ((hmem x).1 (List.mem_cons_self ..)))
    obtain ⟨hx, hxs'⟩ := List.pairwise_cons.1 hxs
    obtain ⟨hy, hys'⟩ := List.pairwise_cons.1 hys
    have hkey : key x = key y := by
      refine Nat.le_antisymm ?_ ?_
      · rcases List.mem_cons.1 ((hmem y).2 (List.mem_cons_self ..)) with he | hmem
        · exact Nat.le_of_eq (congrArg key he.symm)
        · exact hx y hmem
      · rcases List.mem_cons.1 ((hmem x).1 (List.mem_cons_self ..)) with he | hmem
        · exact Nat.le_of_eq (congrArg key he.symm)
        · exact hy x hmem
    have hhead := h (key x)
    rw [List.filter_cons_of_pos (by simp), List.filter_cons_of_pos (by simp [hkey])] at hhead
    obtain ⟨rfl, -⟩ := List.cons.inj hhead
    have htail : ∀ k, xs.filter (key · == k) = ys.filter (key · == k) := by
      intro k
      by_cases hk : key x = k
      · simpa [hk] using h k
      · simpa [hk] using h k
    refine congrArg (x :: ·) (ih hxs' hys' htail fun a => ?_)
    have := congrArg (a ∈ ·) (htail (key a))
    simpa only [List.mem_filter, BEq.rfl, and_true, eq_iff_iff] using this

/-- **Sorting what several passes over a list found.** What each pass finds at a member has smaller
keys than what it finds at later members; sorted by key, the finds stand member by member, and at
one member pass by pass. -/
theorem mergeSort_flatMap_flatMap {ι κ : Type} {passes : List κ} {xs : List ι}
    {found : κ → ι → List α}
    (hwithin : ∀ x ∈ xs, (passes.flatMap fun f => found f x).Pairwise fun a b => key a ≤ key b)
    (hbetween : xs.Pairwise fun x y =>
      ∀ a ∈ passes.flatMap fun f => found f x, ∀ b ∈ passes.flatMap fun f => found f y,
    key a < key b) :
    ((passes.flatMap fun f => xs.flatMap (found f)).mergeSort fun a b => key a ≤ key b) =
      xs.flatMap fun x => passes.flatMap fun f => found f x := by
  have hsorted : (xs.flatMap fun x => passes.flatMap fun f => found f x).Pairwise fun a b =>
      key a ≤ key b :=
    List.pairwise_flatMap.2 ⟨hwithin, hbetween.imp fun h a ha b hb => Nat.le_of_lt (h a ha b hb)⟩
  have hmerged : ((passes.flatMap fun f => xs.flatMap (found f)).mergeSort fun a b =>
      key a ≤ key b).Pairwise
      fun a b => key a ≤ key b :=
    (List.pairwise_mergeSort (key_le_trans key) (key_le_total key) _).imp of_decide_eq_true
  refine eq_of_pairwise_of_filter_eq hmerged hsorted fun k => ?_
  rw [filter_mergeSort]
  clear hsorted hmerged hwithin
  induction xs with
  | nil => simp
  | cons x xs ih =>
    obtain ⟨hfirst, hrest⟩ := List.pairwise_cons.1 hbetween
    have ih := ih hrest
    simp only [List.flatMap_cons, List.filter_append, List.filter_flatMap] at ih ⊢
    -- A key occurs at the first member or at later ones, not at both.
    by_cases hk : ∃ a ∈ passes.flatMap fun f => found f x, key a = k
    · obtain ⟨a, ha, rfl⟩ := hk
      have hnone : ∀ f ∈ passes, ∀ y ∈ xs, (found f y).filter (key · == key a) = [] := by
        intro f hf y hy
        refine List.filter_eq_nil_iff.2 fun b hb => ?_
        have := hfirst y hy a ha b (List.mem_flatMap.2 ⟨f, hf, hb⟩)
        rw [beq_iff_eq]
        omega
      have hpass : ∀ f ∈ passes, (xs.flatMap fun y => (found f y).filter (key · == key a)) = [] :=
        fun f hf => List.flatMap_eq_nil_iff.2 (hnone f hf)
      have hlater : (xs.flatMap fun y => passes.flatMap fun f =>
          (found f y).filter (key · == key a)) = [] :=
        List.flatMap_eq_nil_iff.2 fun y hy => List.flatMap_eq_nil_iff.2 fun f hf => hnone f hf y hy
      rw [hlater, List.append_nil]
      exact List.flatMap_congr fun f hf => by rw [hpass f hf, List.append_nil]
    · have hnone : ∀ f ∈ passes, (found f x).filter (key · == k) = [] := by
        intro f hf
        refine List.filter_eq_nil_iff.2 fun a ha => ?_
        rw [beq_iff_eq]
        exact fun hka => hk ⟨a, List.mem_flatMap.2 ⟨f, hf, ha⟩, hka⟩
      rw [List.flatMap_eq_nil_iff.2 hnone, List.nil_append, ← ih]
      exact List.flatMap_congr fun f hf => by rw [hnone f hf, List.nil_append]

end Stability
namespace Text

/-- Texts that were sorted are in order. -/
theorem pairwise_sorted (xs : List String) : (sorted xs).Pairwise (· ≤ ·) := by
  have hle : ∀ a b : String, (!decide (b < a)) = true ↔ a ≤ b := by
    intro a b
    rw [Bool.not_eq_true', decide_eq_false_iff_not, String.not_lt]
  have h : (sorted xs).Pairwise fun a b => !decide (b < a) := by
    refine List.pairwise_mergeSort (fun a b c hab hbc => ?_) (fun a b => ?_) xs
    · rw [hle] at *
      exact String.le_trans hab hbc
    · rw [Bool.or_eq_true, hle, hle]
      exact String.le_total a b
  exact h.imp fun hab => (hle _ _).1 hab

/-- Where neighbours that are equal become one, texts in order are in strict order. -/
theorem pairwise_collapse {xs : List String} (h : xs.Pairwise (· ≤ ·)) :
    (collapse xs).Pairwise (· < ·) := by
  fun_induction collapse xs with
  | case1 => exact List.Pairwise.nil
  | case2 x => exact List.pairwise_singleton _ x
  | case3 x y rest heq ih => exact ih (List.pairwise_cons.1 h).2
  | case4 x y rest hne ih =>
    obtain ⟨hfirst, hrest⟩ := List.pairwise_cons.1 h
    refine List.pairwise_cons.2 ⟨fun a ha => ?_, ih hrest⟩
    have hxy : x < y :=
      Std.lt_of_le_of_ne (hfirst y (List.mem_cons_self ..)) fun he => hne (beq_iff_eq.2 he)
    rcases List.mem_cons.1 (mem_collapse.1 ha) with rfl | hmem
    · exact hxy
    · exact Std.lt_of_lt_of_le hxy ((List.pairwise_cons.1 hrest).1 a hmem)

/-- The distinct texts of a list stand in strict order. -/
theorem pairwise_sortedDistinct (xs : List String) : (sortedDistinct xs).Pairwise (· < ·) :=
  pairwise_collapse (pairwise_sorted xs)

/-- Lists of the same texts have the same distinct texts in order. -/
theorem sortedDistinct_congr {xs ys : List String} (h : ∀ s, s ∈ xs ↔ s ∈ ys) :
    sortedDistinct xs = sortedDistinct ys :=
  eq_of_pairwise_of_mem_iff (fun _ _ => String.lt_asymm) (pairwise_sortedDistinct xs)
    (pairwise_sortedDistinct ys)
    fun s => mem_sortedDistinct.trans ((h s).trans mem_sortedDistinct.symm)

/-- Texts in strict order are their own distinct texts in order. -/
theorem sortedDistinct_of_pairwise {xs : List String} (h : xs.Pairwise (· < ·)) :
    sortedDistinct xs = xs :=
  eq_of_pairwise_of_mem_iff (fun _ _ => String.lt_asymm) (pairwise_sortedDistinct xs) h
    fun _ => mem_sortedDistinct

end Text
end CodeSurvey
