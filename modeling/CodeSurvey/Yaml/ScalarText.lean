/-
# Texts of YAML scalars

A scalar is written plain, in single or double quotes, or as a block. In each style a single line
break between words becomes a space and further ones stay; a block keeps its line breaks when it is
literal, and chomps those at its end as its header says. Double quotes know escapes.

Each reader takes the place of the scalar and gives its text and the place behind it. Loops take an
allowance of steps; each step takes a character, so the length of the rest is enough.
-/

import CodeSurvey.Number.Numeral
import CodeSurvey.Yaml.Place

namespace CodeSurvey
namespace Yaml

/-- The value of a hexadecimal digit. -/
def hexValue? (c : Char) : Option Nat :=
  if '0' ≤ c ∧ c ≤ '9' then some (c.toNat - 48)
  else if 'a' ≤ c ∧ c ≤ 'f' then some (c.toNat - 87)
  else if 'A' ≤ c ∧ c ≤ 'F' then some (c.toNat - 55)
  else none

/-- The number written with exactly `width` hexadecimal digits at the head of a text. -/
def hexNumber? (width : Nat) (cs : List Char) : Option Nat :=
  let ds := cs.take width
  if ds.length < width then none else (ds.mapM hexValue?).map fun vs =>
    vs.foldl (fun n d => 16 * n + d) 0

/-- The character that a letter after a backslash stands for. -/
def escaped? (c : Char) : Option Char :=
  [('0', '\x00'), ('a', '\x07'), ('b', '\x08'), ('t', '\t'), ('\t', '\t'), ('n', '\n'),
    ('v', '\x0b'), ('f', '\x0c'), ('r', '\r'), ('e', '\x1b'), (' ', ' '), ('"', '"'),
    ('\\', '\\'), ('/', '/'),
    ('N', '\x85'), ('_', '\xa0'), ('L', '\u2028'), ('P', '\u2029')].lookup c

/-- The number of digits of the code after a letter that announces one. -/
def codeWidth? (c : Char) : Option Nat := [('x', 2), ('u', 4), ('U', 8)].lookup c

/-- The character of a code; half of a pair is replaced. -/
def charOfCode (n : Nat) : Except Fault Char :=
  if 0x7FFFFFFF < n then .error (.scalar .codeTooLarge)
  else if 0x10FFFF < n then .error (.scalar .noSuchCharacter)
  else .ok (if h : n.isValidChar then Char.ofNatAux n h else '\ufffd')

/-- What the line breaks and blanks after a line of a quoted scalar add to it; no document
marker may start a line. -/
def quotedBreaks : (allowed : Nat) → Place → Except Fault (List Char × Place)
  | 0, _ => .error .malformed
  | allowed + 1, p =>
    if p.atMarker then .error .malformed
    else
      let p := p.skipRun fun c => c == ' ' || c == '\t'
      if p.atBreak then do
        let (b, p) := p.takeBreak
        let (more, p) ← quotedBreaks allowed p
        return (b ++ more, p)
      else .ok ([], p)

/-- What a single line break followed by others adds to a text. -/
def folded (first others : List Char) : List Char :=
  if first != ['\n'] then first ++ others else if others.isEmpty then [' '] else others

/-- Blanks inside a quoted scalar. -/
def quotedSpaces (p : Place) : Except Fault (List Char × Place) :=
  let (blanks, p) := p.takeRun fun c => c == ' ' || c == '\t'
  if p.char?.isNone then .error .malformed
  else if p.atBreak then do
    let (first, p) := p.takeBreak
    let (others, p) ← quotedBreaks (p.rest.length + 1) p
    return (folded first others, p)
  else .ok (blanks, p)

/-- A character that ends a run of ordinary ones in a quoted scalar. -/
def stopsQuoted (c : Char) : Bool := c == '\x27' || c == '"' || c == '\\' || isGap c

/-- Words inside a quoted scalar. -/
def quotedWords (isDouble : Bool) : (allowed : Nat) → Place → Except Fault (List Char × Place)
  | 0, _ => .error .malformed
  | allowed + 1, p => do
    let (run, p) := p.takeRun (!stopsQuoted ·)
    let go (s : List Char) (p : Place) : Except Fault (List Char × Place) := do
      let (more, p) ← quotedWords isDouble allowed p
      return (run ++ s ++ more, p)
    match p.char? with
    | none => return (run, p)
    | some c =>
      if !isDouble && c == '\x27' && p.peek? 1 == some '\x27' then go ['\x27'] (p.forward 2)
      else if (isDouble && c == '\x27') || (!isDouble && (c == '"' || c == '\\')) then go [c] p.next
      else if isDouble && c == '\\' then
        match p.peek? 1 with
        | none => throw .malformed
        | some e =>
          match escaped? e, codeWidth? e with
          | some x, _ => go [x] (p.forward 2)
          | none, some width =>
            match hexNumber? width (p.rest.drop 2) with
            | none => throw .malformed
            | some n => go [← charOfCode n] (p.forward (2 + width))
          | none, none =>
            if isBreak e then
              let (more, p) ← quotedBreaks (p.rest.length + 1) (p.forward 2)
              go more p
            else throw .malformed
      else return (run, p)

/-- Blanks and words of a quoted scalar up to its closing quote. -/
def quotedRest (quote : Char) : (allowed : Nat) → Place → Except Fault (List Char × Place)
  | 0, _ => .error .malformed
  | allowed + 1, p => do
    if p.at? quote then return ([], p.next)
    else
      let (blanks, p) ← quotedSpaces p
      let (words, p) ← quotedWords (quote == '"') (p.rest.length + 1) p
      let (more, p) ← quotedRest quote allowed p
      return (blanks ++ words ++ more, p)

/-- A quoted scalar. -/
def quotedScalar (quote : Char) (p : Place) : Except Fault (List Char × Place) := do
  let (words, p) ← quotedWords (quote == '"') (p.rest.length + 1) p.next
  let (more, p) ← quotedRest quote (p.rest.length + 1) p
  return (words ++ more, p)

/-- How the line breaks at the end of a block are chomped: one is kept, or none, or all. -/
inductive Chomping
  | clip
  | strip
  | keep
  deriving DecidableEq, Repr

/-- The sign that says how to chomp. -/
def chomping? (c : Option Char) : Option Chomping :=
  if c == some '+' then some .keep else if c == some '-' then some .strip else none

/-- The digit that says how far a block is indented. -/
def increment? (c : Option Char) : Option Nat :=
  c.bind fun c => if '0' ≤ c ∧ c ≤ '9' then some (c.toNat - 48) else none

/-- The header of a block after its opening character: how to chomp and how far it is indented, in
either order. -/
def blockHeader (p : Place) : Except Fault (Chomping × Option Nat × Place) :=
  let (chomp, inc, p) := match chomping? p.char? with
    | some chomp =>
      match increment? p.next.char? with
      | some n => (chomp, some n, p.forward 2)
      | none => (chomp, none, p.next)
    | none =>
      match increment? p.char? with
      | some n =>
        match chomping? p.next.char? with
        | some chomp => (chomp, some n, p.forward 2)
        | none => (.clip, some n, p.next)
      | none => (.clip, none, p)
  if inc == some 0 || !p.atSpaceOrEnd then .error .malformed else .ok (chomp, inc, p)

/-- The blank lines before a block, how far the deepest of them and the first line are indented, and
the place of the first line. -/
def blockIndentation : (allowed : Nat) → (deepest : Nat) → Place → List (List Char) × Nat × Place
  | 0, deepest, p => ([], deepest, p)
  | allowed + 1, deepest, p =>
    if p.atBreak then
      let (b, p) := p.takeBreak
      let (bs, deepest, p) := blockIndentation allowed deepest p
      (b :: bs, deepest, p)
    else if p.at? ' ' then
      let p := p.next
      blockIndentation allowed (max deepest p.column) p
    else ([], deepest, p)

/-- The place behind the spaces before a column. -/
def skipIndent (indent : Nat) (p : Place) : Place :=
  p.forward ((p.rest.take (indent - p.column)).takeWhile (· == ' ')).length

/-- The blank lines inside a block. -/
def blockBreaks (indent : Nat) : (allowed : Nat) → Place → List (List Char) × Place
  | 0, p => ([], p)
  | allowed + 1, p =>
    let p := skipIndent indent p
    if p.atBreak then
      let (b, p) := p.takeBreak
      let (bs, p) := blockBreaks indent allowed p
      (b :: bs, p)
    else ([], p)

/-- The lines of a block from a place on: its text without what ends it, the line break after its
last line, and the blank lines after that. -/
def blockLines (fold : Bool) (indent : Nat) :
    (allowed : Nat) → (breaks : List (List Char)) → Place →
    List Char × List Char × List (List Char) × Place
  | 0, breaks, p => ([], [], breaks, p)
  | allowed + 1, breaks, p =>
    if p.column = indent && p.char?.isSome then
      let isBlankStart (p : Place) : Bool := p.at? ' ' || p.at? '\t'
      let starts := !isBlankStart p
      let (line, p) := p.takeRun (!isBreak ·)
      let (ending, p) := p.takeBreak
      let (after, p) := blockBreaks indent (p.rest.length + 1) p
      if p.column = indent && p.char?.isSome then
        let joint :=
          if fold && ending == ['\n'] && starts && !isBlankStart p then if after.isEmpty then
            [' '] else []
          else ending
        let (more, last, left, p) := blockLines fold indent allowed after p
        (breaks.flatten ++ line ++ joint ++ more, last, left, p)
      else (breaks.flatten ++ line, ending, after, p)
    else ([], [], breaks, p)

/-- A block scalar below an indentation. -/
def blockScalar (fold : Bool) (indent : Int) (p : Place) : Except Fault (List Char × Place) := do
  let (chomp, inc, p) ← blockHeader p.next
  let p ← p.skipLine
  let least := max 1 (indent + 1).toNat
  let (breaks, column, p) := match inc with
    | none =>
      let (breaks, deepest, p) := blockIndentation (p.rest.length + 1) 0 p
      (breaks, max least deepest, p)
    | some n =>
      let column := least + n - 1
      let (breaks, p) := blockBreaks column (p.rest.length + 1) p
      (breaks, column, p)
  let (text, last, left, p) := blockLines fold column (p.rest.length + 1) breaks p
  let ending := if chomp == .strip then [] else last
  return (text ++ ending ++ (if chomp == .keep then left.flatten else []), p)

/-- Whether a plain scalar ends at the head of a text. -/
def stopsPlain (inFlow : Bool) : List Char → Bool
  | [] => true
  | c :: r =>
    isGap c ||
      (c == ':' && r.head?.all fun d => isGap d || (inFlow && ",[]\x7b\x7d".toList.contains d)) ||
      (inFlow && ",?[]\x7b\x7d".toList.contains c)

/-- The number of characters of a run of a plain scalar. -/
def plainLength (inFlow : Bool) : List Char → Nat
  | [] => 0
  | c :: r => if stopsPlain inFlow (c :: r) then 0 else plainLength inFlow r + 1

/-- The blank lines inside a plain scalar, none if a document marker follows one. -/
def plainBreaks : (allowed : Nat) → Place → Option (List Char) × Place
  | 0, p => (none, p)
  | allowed + 1, p =>
    if p.at? ' ' then plainBreaks allowed p.next
    else if p.atBreak then
      let (b, p) := p.takeBreak
      if p.atMarker then (none, p)
      else
        let (more, p) := plainBreaks allowed p
        (more.map (b ++ ·), p)
    else (some [], p)

/-- Blanks inside a plain scalar, whether a line ended in them, and the place behind them. They are
none where the scalar ends. -/
def plainSpaces (p : Place) : List Char × Bool × Place :=
  let (blanks, p) := p.takeRun (· == ' ')
  if p.atBreak then
    let (first, p) := p.takeBreak
    if p.atMarker then ([], true, p)
    else
      match plainBreaks (p.rest.length + 1) p with
      | (some others, p) => (folded first others, true, p)
      | (none, p) => ([], true, p)
  else (blanks, false, p)

/-- A plain scalar from a place on, after the blanks read before it: its text, whether a line ended
after it, and the place behind it. -/
def plainScalar (inFlow : Bool) (indent : Int) :
    (allowed : Nat) → (blanks : List Char) → (lineEnded : Bool) → Place → List Char × Bool × Place
  | 0, _, lineEnded, p => ([], lineEnded, p)
  | allowed + 1, blanks, lineEnded, p =>
    let n := plainLength inFlow p.rest
    if p.at? '#' || n = 0 then ([], lineEnded, p)
    else
      let run := p.rest.take n
      let (next, lineEnded, p) := plainSpaces (p.forward n)
      if next.isEmpty || p.at? '#' || (!inFlow && (p.column : Int) < indent + 1) then
        (blanks ++ run, lineEnded, p)
      else
        let (more, lineEnded, p) := plainScalar inFlow indent allowed next lineEnded p
        (blanks ++ run ++ more, lineEnded, p)

end Yaml
end CodeSurvey
