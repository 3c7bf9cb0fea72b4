/-
# Names in order without regard to case

A set lists its members each once, in an order of its own (`Text.Enumerates`). Sorted without regard
to case, what it lists is as determined as that comparison allows: two enumerations of the same
names give the same names in the same places but for names that differ only in case, which may stand
either way (`Declared.sameNames_arrangedBy`).
-/

import CodeSurvey.Manifest.Declared
import CodeSurvey.Proofs.Keyed
import CodeSurvey.Proofs.Sorting
import Mathlib.Data.String.Basic

namespace CodeSurvey

section Members

variable {α β : Type}

/-- Whether two lists have the same members, in whatever order and however often. -/
def SameMembers (xs ys : List α) : Prop := ∀ a, a ∈ xs ↔ a ∈ ys

namespace SameMembers

variable {xs ys zs ws : List α}

theorem refl (xs : List α) : SameMembers xs xs := fun _ => Iff.rfl

theorem of_perm (h : xs.Perm ys) : SameMembers xs ys := fun _ => h.mem_iff

theorem append (h : SameMembers xs ys) (h' : SameMembers zs ws) :
    SameMembers (xs ++ zs) (ys ++ ws) := fun a => by
  rw [List.mem_append, List.mem_append, h a, h' a]

theorem filter (p : α → Bool) (h : SameMembers xs ys) :
    SameMembers (xs.filter p) (ys.filter p) := fun a => by
  rw [List.mem_filter, List.mem_filter, h a]

theorem filterMap (f : α → Option β) (h : SameMembers xs ys) :
    SameMembers (xs.filterMap f) (ys.filterMap f) := fun b => by
  simp only [List.mem_filterMap, h _]

theorem map (f : α → β) (h : SameMembers xs ys) : SameMembers (xs.map f) (ys.map f) := fun b => by
  simp only [List.mem_map, h _]

theorem isEmpty_eq (h : SameMembers xs ys) : xs.isEmpty = ys.isEmpty := by
  rw [Bool.eq_iff_iff, List.isEmpty_iff, List.isEmpty_iff, List.eq_nil_iff_forall_not_mem,
    List.eq_nil_iff_forall_not_mem]
  simp only [h _]

end SameMembers
end Members

/-- Whether a function lists the members of a set of texts, each once, in some order. -/
structure Text.Enumerates (enumerate : List String → List String) : Prop where
  nodup : ∀ xs, (enumerate xs).Nodup
  mem_iff : ∀ xs a, a ∈ enumerate xs ↔ a ∈ xs

/-- One order is that of the code points. -/
theorem Text.enumerates_sortedDistinct : Text.Enumerates Text.sortedDistinct where
  nodup xs := (Text.pairwise_sortedDistinct xs).imp ne_of_lt
  mem_iff _ _ := Text.mem_sortedDistinct

/-- Another one is that of first mention. -/
theorem Text.enumerates_eraseDups : Text.Enumerates List.eraseDups where
  nodup := nodup_eraseDups
  mem_iff _ _ := List.mem_eraseDups

namespace Declared

/-- Whether names stand in order without regard to case, each once. -/
structure IsArranged (xs : List String) : Prop where
  nodup : xs.Nodup
  ordered : xs.Pairwise fun a b => Text.lowered a ≤ Text.lowered b

/-- Whether two lists are arrangements of the same names: they agree in each place up to case, and
altogether unless two of the names differ only in case. -/
structure SameNames (xs ys : List String) : Prop where
  perm : xs.Perm ys
  left : IsArranged xs
  right : IsArranged ys
  lowered : xs.map Text.lowered = ys.map Text.lowered
  eq : (∀ a ∈ xs, ∀ b ∈ xs, Text.lowered a = Text.lowered b → a = b) → xs = ys

variable {e e₁ e₂ : List String → List String}

theorem isArranged_arrangedBy (he : Text.Enumerates e) (xs : List String) :
    IsArranged (arrangedBy e xs) where
  nodup := (List.mergeSort_perm _ _).nodup_iff.2 (he.nodup xs)
  ordered := by
    have hrank : ∀ a b, (!decide (Text.lowered b < Text.lowered a)) = true ↔
        Text.lowered a ≤ Text.lowered b :=
      fun a b => by rw [Bool.not_eq_true', decide_eq_false_iff_not, not_lt]
    exact pairwise_mergeSort_of_rank hrank _

/-- **Arranging the same names twice.** -/
theorem sameNames_arrangedBy (h₁ : Text.Enumerates e₁) (h₂ : Text.Enumerates e₂)
    {xs ys : List String} (h : SameMembers xs ys) :
    SameNames (arrangedBy e₁ xs) (arrangedBy e₂ ys) := by
  have hleft := isArranged_arrangedBy h₁ xs
  have hright := isArranged_arrangedBy h₂ ys
  have hperm : (arrangedBy e₁ xs).Perm (arrangedBy e₂ ys) := by
    rw [List.perm_ext_iff_of_nodup hleft.nodup hright.nodup]
    intro a
    rw [arrangedBy, arrangedBy, List.mem_mergeSort, List.mem_mergeSort, h₁.mem_iff, h₂.mem_iff, h a]
  refine ⟨hperm, hleft, hright, ?_, fun hdistinct => ?_⟩
  · exact List.Perm.eq_of_pairwise (fun _ _ _ _ => le_antisymm) (List.pairwise_map.2 hleft.ordered)
      (List.pairwise_map.2 hright.ordered) (hperm.map _)
  · refine List.Perm.eq_of_pairwise (fun a b ha hb hab hba => ?_) hleft.ordered hright.ordered hperm
    exact hdistinct a ha b (hperm.mem_iff.2 hb) (le_antisymm hab hba)

end Declared
end CodeSurvey
