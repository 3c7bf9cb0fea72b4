/-
# Texts in order

Texts are ordered character by character, by code point. A set of texts is shown as the list of them
in order, each once; `mem_sortedDistinct` says that it has the same members.
-/

namespace CodeSurvey
namespace Text

/-- Texts in order. -/
def sorted (xs : List String) : List String := xs.mergeSort fun a b => !(b < a)

/-- Neighbours that are equal become one. -/
def collapse : List String → List String
  | [] => []
  | [x] => [x]
  | x :: y :: rest => if x == y then collapse (y :: rest) else x :: collapse (y :: rest)

/-- The distinct texts of a list, in order. -/
def sortedDistinct (xs : List String) : List String := collapse (sorted xs)

theorem mem_sorted {a : String} {xs : List String} : a ∈ sorted xs ↔ a ∈ xs := List.mem_mergeSort

theorem mem_collapse {a : String} {xs : List String} : a ∈ collapse xs ↔ a ∈ xs := by
  fun_induction collapse xs with
  | case1 => rfl
  | case2 => rfl
  | case3 x y rest h ih =>
    rw [ih]
    have : x = y := by simpa using h
    simp [this]
  | case4 x y rest h ih => simp [ih]

theorem mem_sortedDistinct {a : String} {xs : List String} : a ∈ sortedDistinct xs ↔ a ∈ xs := by
  rw [sortedDistinct, mem_collapse, mem_sorted]

end Text
end CodeSurvey
