/-
# Globs

Patterns for names and paths: `*` stands for any text, `?` for any character, `[…]` for a character
of a set and `[!…]` for one outside of it; all else stands for itself, and so does a bracket that is
not closed. A pattern must match a text as a whole, slashes included.

In a set, a hyphen between two characters makes a range, but the first character of the set and the
one after a range end start none. A range whose ends are the wrong way round is left out with both
ends. So a set may come out empty, and then matches nothing, or everything if it is a negated one.
-/

namespace CodeSurvey
namespace Glob

/-- What one character of a text may be, or any text. -/
inductive Piece
  | star
  | any
  | set (negated : Bool) (ranges : List (Char × Char))
  | char (c : Char)
  deriving DecidableEq, Repr

/-- A pattern. -/
abbrev Pieces := List Piece

/-- A character at the start of a text, if it is there, and what follows it. -/
def leading (c : Char) (cs : List Char) : List Char × List Char :=
  if cs.head? == some c then ([c], cs.tail) else ([], cs)

/-- The inside of a set and what follows its closing bracket, which is not the first character. -/
def bracketed? (cs : List Char) : Option (List Char × List Char) :=
  let (mark, afterMark) := leading '!' cs
  let (first, body) := leading ']' afterMark
  match body.dropWhile (· != ']') with
  | [] => none
  | _ :: rest => some (mark ++ first ++ body.takeWhile (· != ']'), rest)

theorem length_leading_le (c : Char) (cs : List Char) : (leading c cs).2.length ≤ cs.length := by
  unfold leading
  split <;> simp

theorem length_lt_of_bracketed? {cs inside rest : List Char}
    (h : bracketed? cs = some (inside, rest)) : rest.length < cs.length := by
  unfold bracketed? at h
  simp only at h
  split at h
  · cases h
  · rename_i c r hr
    cases h
    have h₁ := congrArg List.length hr
    have h₂ := (List.dropWhile_suffix (l := (leading ']' (leading '!' cs).2).2)
      (· != ']')).length_le
    have h₃ := length_leading_le ']' (leading '!' cs).2
    have h₄ := length_leading_le '!' cs
    simp only [List.length_cons] at h₁
    omega

/-- The inside of a set cut at the hyphens that make ranges; the first `lead`
characters hold none. -/
def cutRanges (lead : Nat) (cs : List Char) : List (List Char) :=
  let chunk := cs.take lead ++ (cs.drop lead).takeWhile (· != '-')
  match _h : (cs.drop lead).dropWhile (· != '-') with
  | [] => [cs]
  | [_] => [chunk ++ ['-']]
  | _ :: c :: r => chunk :: cutRanges 2 (c :: r)
termination_by cs.length
decreasing_by
  have h₁ := congrArg List.length _h
  have h₂ := (List.dropWhile_suffix (l := cs.drop lead) (· != '-')).length_le
  simp only [List.length_cons, List.length_drop] at h₁ h₂ ⊢
  omega

/-- The chunks without the ranges whose ends are the wrong way round. -/
def dropReversed : List (List Char) → List (List Char)
  | [] => []
  | c :: rest =>
    match dropReversed rest with
    | [] => [c]
    | d :: more =>
      match c.getLast?, d.head? with
      | some low, some high => if high < low then (c.dropLast ++ d.tail) :: more else c :: d :: more
      | _, _ => c :: d :: more

/-- The characters of a set, and a gap where a hyphen makes a range. -/
def setItems : List (List Char) → List (Option Char)
  | [] => []
  | [c] => c.map some
  | c :: d :: rest => c.map some ++ none :: setItems (d :: rest)

/-- The ranges of a set; a single character is a range of one. -/
def rangesOf : List (Option Char) → List (Char × Char)
  | [] => []
  | some low :: none :: some high :: rest => (low, high) :: rangesOf rest
  | item :: rest => (item.getD '-', item.getD '-') :: rangesOf rest

/-- The piece of a set. -/
def setPiece (inside : List Char) : Piece :=
  let lead := if inside.head? == some '!' then 2 else 1
  match setItems (dropReversed (cutRanges lead inside)) with
  | [some '!'] => .any
  | some '!' :: items => .set true (rangesOf items)
  | items => .set false (rangesOf items)

/-- The pattern written in a text, several stars on end being one. -/
def parse : List Char → Pieces
  | [] => []
  | '*' :: cs =>
    match parse cs with
    | .star :: ps => .star :: ps
    | ps => .star :: ps
  | '?' :: cs => .any :: parse cs
  | '[' :: cs =>
    match _h : bracketed? cs with
    | none => .char '[' :: parse cs
    | some (inside, rest) => setPiece inside :: parse rest
  | c :: cs => .char c :: parse cs
termination_by cs => cs.length
decreasing_by
  all_goals simp only [List.length_cons]
  all_goals first | omega | exact Nat.lt_succ_of_lt (length_lt_of_bracketed? _h)

/-- Whether a character is one that a piece stands for. -/
def Piece.accepts (c : Char) : Piece → Bool
  | star => false
  | any => true
  | set negated ranges => (ranges.any fun r => r.1 ≤ c && c ≤ r.2) != negated
  | char d => c == d

/-- Whether a pattern matches a text as a whole. -/
def accepts : Pieces → List Char → Bool
  | [], cs => cs.isEmpty
  | .star :: ps, cs => (List.range (cs.length + 1)).any fun n => accepts ps (cs.drop n)
  | _ :: _, [] => false
  | p :: ps, c :: cs => p.accepts c && accepts ps cs

/-- Whether the pattern written in a text matches another text. -/
def isMatch (pattern text : String) : Bool := accepts (parse pattern.toList) text.toList

end Glob
end CodeSurvey
