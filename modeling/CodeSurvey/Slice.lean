/-
# Limits and slices

A limit on the length of a list, as an integer: a negative one leaves out as many items at the end.
A slice stops before a place that is counted from the end when it is negative.
-/

namespace CodeSurvey

/-- The items of a list that a limit leaves. -/
def upTo {α : Type} (limit : Int) (xs : List α) : List α :=
  if 0 ≤ limit then xs.take limit.toNat else xs.take (xs.length - (-limit).toNat)

theorem upTo_of_nonneg {α : Type} {limit : Int} (h : 0 ≤ limit) (xs : List α) :
    upTo limit xs = xs.take limit.toNat := by simp [upTo, h]

/-- What a limit leaves is a head of the list. -/
theorem upTo_isPrefix {α : Type} (limit : Int) (xs : List α) : upTo limit xs <+: xs := by
  unfold upTo
  split <;> exact List.take_prefix _ _

/-- A limit leaves the same places of a list and of what is made of its items. -/
theorem upTo_map {α β : Type} (limit : Int) (f : α → β) (xs : List α) :
    upTo limit (xs.map f) = (upTo limit xs).map f := by
  unfold upTo
  rw [List.length_map]
  split <;> exact List.map_take.symm

/-- The items from `start` up to the place `stop`. -/
def slice {α : Type} (start : Nat) (stop : Int) (xs : List α) : List α := (upTo stop xs).drop start

theorem slice_of_nonneg {α : Type} (start : Nat) {stop : Int} (h : 0 ≤ stop) (xs : List α) :
    slice start stop xs = (xs.take stop.toNat).drop start := by simp [slice, upTo_of_nonneg h]

theorem slice_natCast {α : Type} (n m : Nat) (xs : List α) :
    slice n ((n : Int) + m) xs = (xs.take (n + m)).drop n := by
  rw [slice_of_nonneg n (by omega)]
  congr 2

/-- A slice within a list is a part of it, with as many items before it as are left out, and
it is as long as asked. -/
theorem slice_spec {α : Type} {n m : Nat} {xs : List α} (h : n + m ≤ xs.length) :
    (slice n ((n : Int) + m) xs).length = m ∧
      ∃ before after, xs = before ++ slice n ((n : Int) + m) xs ++ after ∧ before.length = n := by
  have hhead : (xs.take (n + m)).take n = xs.take n := by
    rw [List.take_take, Nat.min_eq_left (Nat.le_add_right n m)]
  rw [slice_natCast]
  refine ⟨?_, xs.take n, xs.drop (n + m), ?_, List.length_take_of_le (by omega)⟩
  · rw [List.length_drop, List.length_take_of_le h, Nat.add_sub_cancel_left]
  · rw [← hhead, List.take_append_drop, List.take_append_drop]

/-- The slice of a list where a part stands is the part. -/
theorem slice_append {α : Type} (before b after : List α) :
    slice before.length ((before.length : Int) + b.length) (before ++ b ++ after) = b := by
  rw [slice_natCast, ← List.length_append, List.take_left, List.drop_left]

end CodeSurvey
