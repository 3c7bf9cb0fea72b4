/-
# Numbers in text

A written integer or real number, surrounded by blanks at will. Digits may be of any script, and
single underscores may stand between digits. A real number may leave out the digits on one side of
its point; infinity and the undefined number are written as words in any case. An integer of more
than 4300 digits is refused as too long to convert.
-/

import CodeSurvey.Number.Decimal
import CodeSurvey.Text.Lines

namespace CodeSurvey
namespace Numeral

open Text

/-- The most digits an integer may be written with. -/
def maxDigits : Nat := 4300

/-- Whether an integer has more digits than can be converted. -/
def isEndless (n : Int) : Bool := maxDigits < Binary64.digitCount n.natAbs

/-- Digits in groups between single underscores; not empty. -/
def digits? (cs : List Char) : Option (List Nat) :=
  ((fields '_' cs).mapM fun (g : List Char) => if g.isEmpty then none else g.mapM digitValue?).map
    List.flatten

/-- The number whose decimal digits are given. -/
def ofDigits (ds : List Nat) : Nat := ds.foldl (fun n d => 10 * n + d) 0

/-- A sign, if one is written, and the text after it. -/
def signAndRest : List Char → Bool × List Char
  | '-' :: r => (true, r)
  | '+' :: r => (false, r)
  | cs => (false, cs)

/-- A written integer. -/
def integer? (cs : List Char) : Option Int :=
  let (negative, body) := signAndRest (trim cs)
  match digits? body with
  | none => none
  | some ds =>
    if maxDigits < ds.length then none else some (if negative then -ofDigits ds else ofDigits ds)

/-- Digits as in `digits?`, or none at all. -/
def optionalDigits? (cs : List Char) : Option (List Nat) :=
  if cs.isEmpty then some [] else digits? cs

/-- A written exponent. -/
def exponent? (cs : List Char) : Option Int :=
  let (negative, body) := signAndRest cs
  (digits? body).map fun ds => if negative then -(ofDigits ds : Int) else ofDigits ds

/-- A written mantissa: its digits as one integer and the number of them after the point. -/
def mantissa? (cs : List Char) : Option (Nat × Nat) :=
  let (whole, fraction) := cutAt '.' cs
  match optionalDigits? whole, optionalDigits? (fraction.getD []) with
  | some w, some f => if w.isEmpty && f.isEmpty then none else some (ofDigits (w ++ f), f.length)
  | _, _ => none

/-- An ASCII letter in lower case. -/
def lowerAscii (c : Char) : Char := if isUpperAscii c then Char.ofNat (c.toNat + 32) else c

/-- A written real number without its sign. -/
def unsigned? (negative : Bool) (cs : List Char) : Option Binary64 :=
  let word := cs.map lowerAscii
  if word == "inf".toList || word == "infinity".toList then some (.infinite negative)
  else if word == "nan".toList then some .nan
  else
    let marked := span (fun c => c != 'e' && c != 'E') cs
    let exponent := match marked.2 with
      | [] => some 0
      | _ :: r => exponent? r
    match mantissa? marked.1, exponent with
    | some (m, places), some e => some (.ofDecimal negative m (e - places))
    | _, _ => none

/-- A written real number. -/
def real? (cs : List Char) : Option Binary64 :=
  let (negative, body) := signAndRest (trim cs)
  unsigned? negative body

end Numeral
end CodeSurvey
