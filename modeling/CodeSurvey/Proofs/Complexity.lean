/-
# Logical lines of joined texts

What ends a line, and how many line ends stand in a row, shows only in lines that are empty: the
other lines are the fields between line ends (`Text.filter_lines`). No empty line is logical, so
logical lines may be counted among these fields (`logicalLines_eq_countP_fields`), and any line end
joins the fields of two texts, also one that makes a pair with the character before it. Hence the
counts of two texts with a line feed between them add up, and plain line ends change no count
(`logicalLines_joined`).
-/

import CodeSurvey.Complexity
import CodeSurvey.Proofs.Survey.Preparation

namespace CodeSurvey

open Text

namespace Text

variable {sep : Char → Bool} {c : Char}

/-- A character that is no separator stands at the start of the first field. -/
theorem fieldsBy_cons_of_not (h : sep c = false) (cs : List Char) :
    fieldsBy sep (c :: cs) = (c :: (fieldsBy sep cs).headD []) :: (fieldsBy sep cs).tail := by
  obtain ⟨f, fs, hfields⟩ := List.exists_cons_of_ne_nil (fieldsBy_ne_nil sep cs)
  rw [fieldsBy, if_neg (Bool.eq_false_iff.1 h), hfields]
  rfl

/-- Lists of texts with the same first text and, up to empty ones, the same other texts are the
same up to empty ones. -/
theorem filter_eq_of_headD_of_tail {ls ms : List (List Char)} (hhead : ls.headD [] = ms.headD [])
    (htail : ls.tail.filter (!·.isEmpty) = ms.tail.filter (!·.isEmpty)) :
    ls.filter (!·.isEmpty) = ms.filter (!·.isEmpty) := by
  have hsplit (xs : List (List Char)) : xs.filter (!·.isEmpty) =
      (xs.headD [] :: xs.tail).filter (!·.isEmpty) := by
    cases xs <;> rfl
  rw [hsplit ls, hsplit ms, List.filter_cons, List.filter_cons, hhead, htail]

/-- The first line is the first field between line ends, and the lines after it are the other
fields, up to empty ones. -/
theorem fieldsBy_isLineEnd (cs : List Char) :
    (fieldsBy isLineEnd cs).headD [] = (lines cs).headD [] ∧
      (fieldsBy isLineEnd cs).tail.filter (!·.isEmpty) = (lines cs).tail.filter (!·.isEmpty) := by
  induction cs using lines.induct with
  | case1 => exact ⟨rfl, rfl⟩
  | case2 r ih =>
    -- A pair is one line end and two separators: the field between them is empty.
    refine ⟨rfl, ?_⟩
    have hpair : (fieldsBy isLineEnd ('\r' :: '\n' :: r)).tail = [] :: fieldsBy isLineEnd r := rfl
    rw [hpair, lines, List.tail_cons, ← filter_eq_of_headD_of_tail ih.1 ih.2]
    rfl
  | case3 c r hpair hend ih =>
    rw [fieldsBy, if_pos hend, lines.eq_3 c r hpair, if_pos hend]
    exact ⟨rfl, filter_eq_of_headD_of_tail ih.1 ih.2⟩
  | case4 c r _ hend _ ih | case5 c r _ hend _ _ _ ih =>
    have hinner := Bool.eq_false_iff.2 hend
    rw [fieldsBy_cons_of_not hinner, lines_cons_of_not_isLineEnd hinner, ih.1]
    exact ⟨rfl, ih.2⟩

/-- **The lines that are not empty** are the fields between line ends that are not empty. -/
theorem filter_lines (cs : List Char) :
    (lines cs).filter (!·.isEmpty) = (fieldsBy isLineEnd cs).filter (!·.isEmpty) := by
  obtain ⟨hhead, htail⟩ := fieldsBy_isLineEnd cs
  exact filter_eq_of_headD_of_tail hhead.symm htail.symm

end Text

variable {marks : List String}

theorem isLogicalLine_nil : isLogicalLine marks [] = false := rfl

/-- Whether empty lines are left out before the logical ones are counted does not matter. -/
theorem countP_isLogicalLine_filter (ls : List (List Char)) :
    (ls.filter (!·.isEmpty)).countP (isLogicalLine marks) = ls.countP (isLogicalLine marks) := by
  rw [List.countP_filter]
  refine List.countP_congr fun l _ => ?_
  cases l with
  | nil => simp [isLogicalLine_nil]
  | cons => simp

/-- Logical lines are counted among the fields between line ends. -/
theorem logicalLines_eq_countP_fields (cs : List Char) :
    logicalLines marks cs = (fieldsBy isLineEnd cs).countP (isLogicalLine marks) := by
  rw [logicalLines, ← countP_isLogicalLine_filter, filter_lines, countP_isLogicalLine_filter]

/-- A line end between two texts makes no logical line and takes none away. -/
theorem logicalLines_append_lineEnd {c : Char} (hc : isLineEnd c = true) (a b : List Char) :
    logicalLines marks (a ++ c :: b) = logicalLines marks a + logicalLines marks b := by
  simp only [logicalLines_eq_countP_fields, fieldsBy_append_separator hc, List.countP_append]

theorem logicalLines_cons_lineEnd {c : Char} (hc : isLineEnd c = true) (cs : List Char) :
    logicalLines marks (c :: cs) = logicalLines marks cs := by
  rw [← List.nil_append (c :: cs), logicalLines_append_lineEnd hc]
  exact Nat.zero_add _

/-- A text has as many logical lines with a line feed for each pair of carriage
return and line feed. -/
theorem logicalLines_eq_of_replacesPairs {cs ds : List Char} (h : ReplacesPairs cs ds) :
    logicalLines marks ds = logicalLines marks cs := by
  obtain ⟨first, rest, -, rfl, rfl⟩ := h
  induction rest generalizing first with
  | nil => rfl
  | cons p rest ih =>
    simp only [List.flatMap_cons, List.cons_append, logicalLines_append_lineEnd (c := '\n') rfl,
      logicalLines_append_lineEnd (c := '\r') rfl, logicalLines_cons_lineEnd (c := '\n') rfl, ih]

/-- **Logical lines of joined texts.** Whatever marks a comment, the logical lines of two texts with
a line feed between them are those of the one and those of the other, and a text with plain line
ends has as many as before. -/
theorem logicalLines_joined (marks : List String) :
    (∀ a b : String, logicalLines marks (a ++ "\n" ++ b).toList =
      logicalLines marks a.toList + logicalLines marks b.toList) ∧
    ∀ s : String, logicalLines marks (Preparation.plainText s).toList =
      logicalLines marks s.toList := by
  constructor
  · intro a b
    have hjoined : (a ++ "\n" ++ b).toList = a.toList ++ '\n' :: b.toList := by simp
    rw [hjoined, logicalLines_append_lineEnd rfl]
  · intro s
    rw [Preparation.plainText, String.toList_ofList]
    exact logicalLines_eq_of_replacesPairs (replacesPairs_unifyLineEnds s.toList)

/-- The lines themselves may change: a carriage return before a pair makes a
pair with its line feed. -/
example : lines "a\r\r\nb".toList = ["a".toList, [], "b".toList] ∧
    lines (Preparation.plainText "a\r\r\nb").toList = ["a".toList, "b".toList] := by decide

end CodeSurvey
