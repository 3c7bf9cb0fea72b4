/-
# Totals

The total of a list of numbers, which of two lists together is the total of both.
-/

namespace CodeSurvey

/-- The total of a list of numbers. -/
def total {α : Type} [Add α] [OfNat α 0] (xs : List α) : α := xs.foldr (· + ·) 0

theorem total_cons {α : Type} [Add α] [OfNat α 0] (x : α) (xs : List α) :
    total (x :: xs) = x + total xs := rfl

/-- The total of two lists of natural numbers, one after the other. -/
theorem total_append (xs ys : List Nat) : total (xs ++ ys) = total xs + total ys := by
  induction xs with
  | nil => exact (Nat.zero_add _).symm
  | cons x xs ih => rw [List.cons_append, total_cons, total_cons, ih, Nat.add_assoc]

end CodeSurvey
