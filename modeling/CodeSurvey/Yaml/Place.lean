/-
# Places in a YAML text

A place is the text that is left, with the number of characters, lines and columns before it. A line
ends at a line feed, a next line character, or a line or paragraph separator; a byte order mark
takes no column. Nothing stands behind the end of the text, and the end counts as blank.
-/

import CodeSurvey.Yaml.Fault

namespace CodeSurvey
namespace Yaml

/-- A character that ends a line. -/
def isBreak (c : Char) : Bool := c == '\n' || c == '\x85' || c == '\u2028' || c == '\u2029'

/-- A blank or the end of a line. -/
def isGap (c : Char) : Bool := c == ' ' || c == '\t' || isBreak c

/-- A letter, digit, hyphen or underscore of ASCII. -/
def isNameChar (c : Char) : Bool :=
  ('0' ≤ c && c ≤ '9') || ('A' ≤ c && c ≤ 'Z') || ('a' ≤ c && c ≤ 'z') || c == '-' || c == '_'

/-- A place in a text. -/
structure Place where
  rest : List Char
  index : Nat := 0
  line : Nat := 0
  column : Nat := 0

namespace Place

/-- The place behind one character. -/
def next (p : Place) : Place :=
  match p.rest with
  | [] => p
  | c :: r =>
    if isBreak c then ⟨r, p.index + 1, p.line + 1, 0⟩
    else if c == '\ufeff' then ⟨r, p.index + 1, p.line, p.column⟩
    else ⟨r, p.index + 1, p.line, p.column + 1⟩

/-- The place behind some characters. -/
def forward : Nat → Place → Place
  | 0, p => p
  | n + 1, p => forward n p.next

/-- The character at a place. -/
def char? (p : Place) : Option Char := p.rest.head?

/-- The character some way behind a place. -/
def peek? (p : Place) (n : Nat) : Option Char := p.rest[n]?

/-- Whether a character stands at a place. -/
def at? (p : Place) (c : Char) : Bool := p.char? == some c

/-- Whether a line break stands at a place. -/
def atBreak (p : Place) : Bool := p.char?.any isBreak

/-- Whether a line break or the end stands at a place. -/
def atLineEnd (p : Place) : Bool := p.char?.all isBreak

/-- Whether a space, a line break or the end stands at a place. -/
def atSpaceOrEnd (p : Place) : Bool := p.char?.all fun c => c == ' ' || isBreak c

/-- Whether a blank, a line break or the end stands some way behind a place. -/
def gapAt (p : Place) (n : Nat) : Bool := (p.peek? n).all isGap

/-- The longest run of characters that pass the test, and the place behind it. -/
def takeRun (f : Char → Bool) (p : Place) : List Char × Place :=
  let run := p.rest.takeWhile f
  (run, p.forward run.length)

/-- The place behind the longest run of characters that pass the test. -/
def skipRun (f : Char → Bool) (p : Place) : Place := (p.takeRun f).2

/-- The place behind spaces. -/
def skipSpaces (p : Place) : Place := p.skipRun (· == ' ')

/-- The place behind a comment, if one starts here. -/
def skipComment (p : Place) : Place := if p.at? '#' then p.skipRun (!isBreak ·) else p

/-- What a line break adds to a text, and the place behind it; nothing where there is none. -/
def takeBreak (p : Place) : List Char × Place :=
  match p.char? with
  | none => ([], p)
  | some c =>
    if c == '\n' || c == '\x85' then (['\n'], p.next)
    else if isBreak c then ([c], p.next)
    else ([], p)

/-- Whether a document marker stands at a place. -/
def atMarker (p : Place) : Bool :=
  (['-', '-', '-'].isPrefixOf p.rest || ['.', '.', '.'].isPrefixOf p.rest) && p.gapAt 3

/-- The place behind the blank end of a line, a comment and the line break. -/
def skipLine (p : Place) : Except Fault Place :=
  let p := p.skipSpaces.skipComment
  if p.atLineEnd then .ok p.takeBreak.2 else .error .malformed

end Place
end Yaml
end CodeSurvey
