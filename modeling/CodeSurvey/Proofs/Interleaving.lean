/-
# Interleavings

Several lists come together in one that takes the head of any of them again and again, until all are
used up (`Interleaves`). So each list keeps its order (`Interleaves.sublist`), and no item is lost
or counted twice (`Interleaves.perm`). What is chosen of the items on the way may as well be chosen
of each list first (`Interleaves.filterMap`), and where only one list has any items, it comes out as
it is (`Interleaves.eq_of_lone`).
-/

import Mathlib.Data.List.Basic

namespace CodeSurvey

variable {α β : Type}

/-- Whether a list comes of others by taking the head of any of them, again and again,
until all are used up. -/
inductive Interleaves : List (List α) → List α → Prop
  | done {parts : List (List α)} (h : ∀ part ∈ parts, part = []) : Interleaves parts []
  | next {before after : List (List α)} {x : α} {rest whole : List α}
      (h : Interleaves (before ++ rest :: after) whole) :
      Interleaves (before ++ (x :: rest) :: after) (x :: whole)

namespace Interleaves

/-- A list that is used up makes no difference. -/
theorem cons_nil {parts : List (List α)} {whole : List α} (h : Interleaves parts whole) :
    Interleaves ([] :: parts) whole := by
  induction h with
  | done h => exact done fun part hpart => (List.mem_cons.1 hpart).elim id (h part)
  | @next before after x rest whole _ ih => exact @next _ ([] :: before) _ _ _ _ ih

/-- One list after the other is an interleaving. -/
theorem flatten (parts : List (List α)) : Interleaves parts parts.flatten := by
  induction parts with
  | nil => exact done fun part hpart => absurd hpart List.not_mem_nil
  | cons part parts ih =>
    rw [List.flatten_cons]
    induction part with
    | nil => exact ih.cons_nil
    | cons x rest ihRest => exact @next _ [] _ _ _ _ ihRest

/-- No item is lost or counted twice. -/
theorem perm {parts : List (List α)} {whole : List α} (h : Interleaves parts whole) :
    whole.Perm parts.flatten := by
  induction h with
  | done h => rw [List.flatten_eq_nil_iff.2 h]
  | next _ ih =>
    rw [List.flatten_append, List.flatten_cons] at ih ⊢
    exact (ih.cons _).trans List.perm_middle.symm

/-- Each list keeps its order. -/
theorem sublist {parts : List (List α)} {whole : List α} (h : Interleaves parts whole)
    {part : List α} (hpart : part ∈ parts) : List.Sublist part whole := by
  induction h generalizing part with
  | done h => rw [h part hpart]
  | @next before after x rest whole _ ih =>
    rw [List.mem_append, List.mem_cons] at hpart
    rcases hpart with hmem | rfl | hmem
    · exact (ih (List.mem_append_left _ hmem)).cons x
    · exact (ih (List.mem_append_right _ (List.mem_cons_self ..))).cons_cons x
    · exact (ih (List.mem_append_right _ (List.mem_cons_of_mem _ hmem))).cons x

/-- What is chosen of an interleaving is an interleaving of what is chosen of each list. -/
theorem filterMap (f : α → Option β) {parts : List (List α)} {whole : List α}
    (h : Interleaves parts whole) :
    Interleaves (parts.map (List.filterMap f)) (whole.filterMap f) := by
  induction h with
  | done h =>
    refine done fun part hpart => ?_
    obtain ⟨source, hsource, rfl⟩ := List.mem_map.1 hpart
    rw [h source hsource, List.filterMap_nil]
  | @next before after x rest whole _ ih =>
    rw [List.map_append, List.map_cons] at ih ⊢
    cases hx : f x with
    | none => rwa [List.filterMap_cons_none hx, List.filterMap_cons_none hx]
    | some y =>
      rw [List.filterMap_cons_some hx, List.filterMap_cons_some hx]
      exact next ih

/-- Where only one list has any items, it comes out as it is. -/
theorem eq_of_lone {before after : List (List α)} {part whole : List α}
    (h : Interleaves (before ++ part :: after) whole) (hbefore : ∀ other ∈ before, other = [])
    (hafter : ∀ other ∈ after, other = []) : whole = part := by
  have hperm := h.perm
  rw [List.flatten_append, List.flatten_cons, List.flatten_eq_nil_iff.2 hbefore,
    List.flatten_eq_nil_iff.2 hafter, List.nil_append, List.append_nil] at hperm
  have hsub := h.sublist (List.mem_append_right _ (List.mem_cons_self ..))
  exact (hsub.eq_of_length hperm.length_eq.symm).symm

/-- Where no list has any items, nothing comes out. -/
theorem eq_nil {parts : List (List α)} {whole : List α} (h : Interleaves parts whole)
    (hparts : ∀ part ∈ parts, part = []) : whole = [] := by
  have hperm := h.perm
  rw [List.flatten_eq_nil_iff.2 hparts] at hperm
  exact hperm.eq_nil

end Interleaves
end CodeSurvey
