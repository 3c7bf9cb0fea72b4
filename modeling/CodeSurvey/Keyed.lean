/-
# Values by key, in order of first mention

A list of pairs in which each key stands once, where it was first mentioned. Assigning a value to a
key that is there replaces the value in its place; a new key goes to the end. So the keys after an
assignment depend on the keys before it alone (`assign_keys`), and they stay distinct.
-/

namespace CodeSurvey
namespace Keyed

variable {κ α : Type} [BEq κ]

/-- The value of a key is replaced by what `f` makes of it; a new key starts from `start`. -/
def modify (key : κ) (start : α) (f : α → α) : List (κ × α) → List (κ × α)
  | [] => [(key, f start)]
  | (k, v) :: rest => if k == key then (k, f v) :: rest else (k, v) :: modify key start f rest

/-- A key is given a value. -/
def assign (key : κ) (value : α) (ms : List (κ × α)) : List (κ × α) :=
  modify key value (fun _ => value) ms

/-- The pairs of a list with each key once: its last value in its first place. -/
def ofList (ps : List (κ × α)) : List (κ × α) := ps.foldl (fun ms p => assign p.1 p.2 ms) []

theorem modify_keys [LawfulBEq κ] (key : κ) (start : α) (f : α → α) (ms : List (κ × α))
    [DecidableEq κ] :
    (modify key start f ms).map Prod.fst =
      if key ∈ ms.map Prod.fst then ms.map Prod.fst else ms.map Prod.fst ++ [key] := by
  induction ms with
  | nil => simp [modify]
  | cons m rest ih =>
    obtain ⟨k, v⟩ := m
    by_cases h : k = key
    · simp [modify, h]
    · simp only [modify, beq_iff_eq, h, if_false, List.map_cons, ih, List.mem_cons]
      by_cases hm : key ∈ rest.map Prod.fst
      · simp [hm]
      · simp [hm, Ne.symm h]

/-- Changing the value of a key keeps the keys distinct. -/
theorem modify_keys_nodup [LawfulBEq κ] [DecidableEq κ] (key : κ) (start : α) (f : α → α)
    {ms : List (κ × α)} (h : (ms.map Prod.fst).Nodup) :
    ((modify key start f ms).map Prod.fst).Nodup := by
  rw [modify_keys]
  split
  · exact h
  · rename_i hm
    rw [List.nodup_append]
    refine ⟨h, by simp, ?_⟩
    intro a ha b hb
    simp only [List.mem_singleton] at hb
    subst hb
    intro hab
    exact hm (hab ▸ ha)

end Keyed
end CodeSurvey
