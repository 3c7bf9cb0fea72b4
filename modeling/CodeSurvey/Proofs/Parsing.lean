/-
# The first fault of a tree

A fault is a node that is an error or that the parser made up. The search for the first one enters
marked subtrees only. If every node with a fault in its subtree is marked, this search visits the
same faults in the same order as the listing of the whole tree (`SyntaxTree.filter_walkFaults`), so
what is said of the tree is said of its first fault (`describeSyntaxError_of_faultsMarked`).
-/

import CodeSurvey.Parsing
import CodeSurvey.Proofs.SyntaxTree

namespace CodeSurvey
namespace SyntaxTree

/-- Whether a node is an error, or was made up by the parser. -/
def isFault (t : SyntaxTree) : Bool := t.kind == "ERROR" || t.label.missing

/-- Whether every node that is a fault, or has one below it, is marked. -/
def FaultsMarked (root : SyntaxTree) : Prop :=
  ∀ t ∈ root.preorder, (∃ u ∈ t.preorder, u.isFault) → t.hasFault

instance (root : SyntaxTree) : Decidable root.FaultsMarked :=
  inferInstanceAs (Decidable (∀ t ∈ root.preorder, (∃ u ∈ t.preorder, u.isFault) → t.hasFault))

/-- The search meets the faults of the whole tree in their order. -/
theorem filter_walkFaults {root : SyntaxTree} (h : root.FaultsMarked) :
    root.walkFaults.filter isFault = root.preorder.filter isFault := by
  have hstack : ∀ t ∈ [root].flatMap preorder, ∀ u ∈ t.preorder, u.isFault → t.hasFault := by
    intro t ht u hu hfault
    rw [List.flatMap_singleton] at ht
    exact h t ht ⟨u, hu, hfault⟩
  rw [walkFaults, filter_walkStack hstack, List.flatMap_singleton]

end SyntaxTree

open SyntaxTree

/-- A place in words names its row and its column, counted from one. -/
theorem append_atPlace (what : String) (place : Nat × Nat) :
    what ++ " at " ++ atPlace place =
      what ++ " at line " ++ toString (place.1 + 1) ++ ", column " ++ toString (place.2 + 1) := by
  have hline : " at line " = " at " ++ "line " := rfl
  rw [atPlace, hline]
  simp only [String.append_assoc]

/-- What is said at a node that is a fault. -/
def faultText (source : List UInt8) (t : SyntaxTree) : String :=
  (if t.kind = "ERROR" then "syntax error" else "missing " ++ Text.quoted t.kind) ++
    " at line " ++ toString ((placeOf source t.label.start).1 + 1) ++
    ", column " ++ toString ((placeOf source t.label.start).2 + 1)

/-- Something is said at the faults and nowhere else. -/
theorem faultAt?_eq (source : List UInt8) (t : SyntaxTree) :
    faultAt? source t = if t.isFault then some (faultText source t) else none := by
  rw [faultText, ← append_atPlace, faultAt?, isFault]
  by_cases hkind : t.kind = "ERROR"
  · simp only [hkind, BEq.rfl, Bool.true_or, if_true]
    rfl
  · by_cases hmissing : t.label.missing <;> simp [hkind, hmissing]

/-- What is said first is said at the first fault. -/
theorem findSome?_faultAt? (source : List UInt8) (ts : List SyntaxTree) :
    ts.findSome? (faultAt? source) = (ts.find? isFault).map (faultText source) := by
  induction ts with
  | nil => rfl
  | cons t ts ih =>
    rw [List.findSome?_cons, List.find?_cons, faultAt?_eq, ih]
    cases t.isFault <;> rfl

/-- **The pruned search finds the first fault.** In a tree whose faults are marked the search meets
all faults of the tree in their order. What is said of the tree names the row and the column,
counted from one, at which its first fault starts, as an error or, if it was made up and is no
error, as a missing piece; without a fault the end of the tree is blamed. -/
theorem describeSyntaxError_of_faultsMarked (source : List UInt8) {root : SyntaxTree}
    (h : root.FaultsMarked) :
    root.walkFaults.filter isFault = root.preorder.filter isFault ∧
      describeSyntaxError source root =
        match root.preorder.find? isFault with
        | some t =>
          (if t.kind = "ERROR" then "syntax error" else "missing " ++ Text.quoted t.kind) ++
            " at line " ++ toString ((placeOf source t.label.start).1 + 1) ++
            ", column " ++ toString ((placeOf source t.label.start).2 + 1)
        | none =>
          "syntax error at line " ++ toString ((placeOf source root.label.stop).1 + 1) ++
            ", column " ++ toString ((placeOf source root.label.stop).2 + 1) := by
  have hfaults := filter_walkFaults h
  have hfirst : root.walkFaults.find? isFault = root.preorder.find? isFault := by
    rw [← List.head?_filter, hfaults, List.head?_filter]
  refine ⟨hfaults, ?_⟩
  rw [describeSyntaxError, findSome?_faultAt?, hfirst]
  cases root.preorder.find? isFault with
  | some t => rfl
  | none => exact append_atPlace "syntax error" (placeOf source root.label.stop)

/-- An unmarked statement is skipped; of a missing piece and a later error the
missing piece is named. -/
theorem describeSyntaxError_of_missing_bracket :
    let source := Utf8.encode "a;\nif (x"
    let statement : SyntaxTree :=
      .node { kind := "expression_statement", start := 0, stop := 2 }
        [.node { kind := "identifier", start := 0, stop := 1 } []]
    let bracket : SyntaxTree :=
      .node { kind := ")", start := 8, stop := 8, named := false, missing := true } []
    let condition : SyntaxTree :=
      .node { kind := "parenthesized_expression", start := 6, stop := 8, broken := true }
        [.node { kind := "identifier", start := 7, stop := 8 } [], bracket]
    let error : SyntaxTree := .node { kind := "ERROR", start := 8, stop := 8, broken := true } []
    let root : SyntaxTree :=
      .node { kind := "program", start := 0, stop := 8, broken := true }
        [statement, .node { kind := "if_statement", start := 3, stop := 8, broken := true }
          [condition, error]]
    root.FaultsMarked ∧ describeSyntaxError source root = "missing ')' at line 2, column 6" := by
  intro source statement bracket condition error root
  have hmarked : root.FaultsMarked := by decide
  obtain ⟨-, hsaid⟩ := describeSyntaxError_of_faultsMarked source hmarked
  exact ⟨hmarked, hsaid.trans (by decide +kernel)⟩

end CodeSurvey
