/-
# Scalars of TOML

What stands on one place of a TOML text: blanks, comments, strings, dates and numbers. Each reader
takes the text from its place on and gives the value and the text behind it.

* Blanks are spaces and tabs; a comment runs to the end of its line. Control characters other than
  the tab are refused everywhere.
* A basic string knows escapes, a literal string none. Three quotes open a string over several
  lines, whose first line break does not count and which may end in one or two quotes of its own.
* A number may have single underscores between its digits; a date must exist.
-/

import CodeSurvey.Calendar
import CodeSurvey.Toml

namespace CodeSurvey
namespace Toml

/-- A value and the text behind it. -/
abbrev Rest (α : Type) := α × List Char

/-- A blank of a line. -/
def isSpace (c : Char) : Bool := c == ' ' || c == '\t'

/-- A blank or the end of a line. -/
def isGap (c : Char) : Bool := isSpace c || c == '\n'

/-- A character that a line must not hold. -/
def isIllegal (c : Char) : Bool := (c.toNat < 32 && c != '\t') || c.toNat == 127

/-- A character that a text over several lines must not hold. -/
def isIllegalInLines (c : Char) : Bool := isIllegal c && c != '\n'

/-- The text after blanks. -/
def afterSpace (cs : List Char) : List Char := cs.dropWhile isSpace

/-- The text after a comment, if one starts here. -/
def afterComment : List Char → Except Fault (List Char)
  | '#' :: r =>
    if (r.takeWhile (· != '\n')).any isIllegal then .error .malformed
    else .ok (r.dropWhile (· != '\n'))
  | cs => .ok cs

set_option linter.unusedVariables false in
/-- The text after blanks, line ends and comments. -/
def afterGap (cs : List Char) : Except Fault (List Char) :=
  match h : cs.dropWhile isGap with
  | '#' :: r =>
    if (r.takeWhile (· != '\n')).any isIllegal then .error .malformed
    else afterGap (r.dropWhile (· != '\n'))
  | r => .ok r
termination_by cs.length
decreasing_by
  have h1 := (List.dropWhile_sublist isGap (l := cs)).length_le
  have h2 := (List.dropWhile_sublist (· != '\n') (l := r)).length_le
  rw [h] at h1
  simp only [List.length_cons] at h1
  omega

/-- The text before the first occurrence of a word and the text after it. -/
def cutAtWord (word : List Char) : List Char → Option (List Char × List Char)
  | [] => none
  | c :: r =>
    if word.isPrefixOf (c :: r) then some ([], (c :: r).drop word.length)
    else (cutAtWord word r).map fun (a, b) => (c :: a, b)

/-- The value of a hexadecimal digit. -/
def hexValue? (c : Char) : Option Nat :=
  if '0' ≤ c ∧ c ≤ '9' then some (c.toNat - 48)
  else if 'a' ≤ c ∧ c ≤ 'f' then some (c.toNat - 87)
  else if 'A' ≤ c ∧ c ≤ 'F' then some (c.toNat - 55)
  else none

/-- The character whose code is written with a number of hexadecimal digits. -/
def codedChar? (width : Nat) (cs : List Char) : Option Char :=
  let ds := cs.take width
  if ds.length < width then none
  else
    match ds.mapM hexValue? with
    | none => none
    | some vs =>
      let n := vs.foldl (fun n d => 16 * n + d) 0
      if h : n.isValidChar then some (Char.ofNatAux n h) else none

/-- The character that a letter after a backslash stands for. -/
def escaped? : Char → Option Char
  | 'b' => some '\x08'
  | 't' => some '\t'
  | 'n' => some '\n'
  | 'f' => some '\x0c'
  | 'r' => some '\r'
  | '"' => some '"'
  | '\\' => some '\\'
  | _ => none

/-- The text after a backslash that joins lines: blanks up to the end of the line, and every blank
and line end after it. -/
def afterJoin (cs : List Char) : Option (List Char) :=
  match cs.dropWhile isSpace with
  | [] => some []
  | c :: r => if c == '\n' then some (r.dropWhile isGap) else none

theorem length_afterJoin_le {cs r : List Char} (h : afterJoin cs = some r) :
    r.length ≤ cs.length := by
  unfold afterJoin at h
  have h1 := (List.dropWhile_sublist isSpace (l := cs)).length_le
  split at h
  · cases h; simp
  · rename_i c t ht
    rw [ht] at h1
    simp only [List.length_cons] at h1
    split at h
    · cases h
      have h2 := (List.dropWhile_sublist isGap (l := t)).length_le
      omega
    · cases h

set_option linter.unusedVariables false in
/-- A basic string after its opening quotes. -/
def basicString (manyLines : Bool) (cs : List Char) : Except Fault (Rest (List Char)) :=
  match cs with
  | [] => .error .malformed
  | '"' :: r =>
    if !manyLines then .ok ([], r)
    else if ['"', '"'].isPrefixOf r then .ok ([], r.drop 2)
    else (basicString manyLines r).map fun (s, t) => ('"' :: s, t)
  | ['\\'] => .error .malformed
  | '\\' :: e :: r =>
    if manyLines && isGap e then
      match h : afterJoin (e :: r) with
      | none => .error .malformed
      | some t => basicString manyLines t
    else if e == 'u' || e == 'U' then
      let width := if e == 'u' then 4 else 8
      match codedChar? width r with
      | none => .error .malformed
      | some c => (basicString manyLines (r.drop width)).map fun (s, t) => (c :: s, t)
    else
      match escaped? e with
      | none => .error .malformed
      | some c => (basicString manyLines r).map fun (s, t) => (c :: s, t)
  | c :: r =>
    if if manyLines then isIllegalInLines c else isIllegal c then .error .malformed
    else (basicString manyLines r).map fun (s, t) => (c :: s, t)
termination_by cs.length
decreasing_by
  · simp
  · have := length_afterJoin_le h
    simp only [List.length_cons] at *
    omega
  · simp only [List.length_cons, List.length_drop]; omega
  · simp only [List.length_cons]; omega
  · simp

/-- A literal string after its opening quote. -/
def literalString (cs : List Char) : Except Fault (Rest (List Char)) :=
  match cutAtWord ['\x27'] cs with
  | none => .error .malformed
  | some (s, r) => if s.any isIllegal then .error .malformed else .ok (s, r)

/-- A text without the line break that it starts with. -/
def afterBreak : List Char → List Char
  | '\n' :: r => r
  | cs => cs

/-- A string over several lines takes up to two of the quotes that follow its end. -/
def withLastQuotes (quote : Char) (s : List Char) : List Char → List Char × List Char
  | a :: b :: r =>
    if a != quote then (s, a :: b :: r)
    else if b != quote then (s ++ [a], b :: r)
    else (s ++ [a, b], r)
  | [a] => if a != quote then (s, [a]) else (s ++ [a], [])
  | [] => (s, [])

/-- A string, over several lines or not. -/
def string (cs : List Char) : Except Fault (Rest (List Char)) :=
  match cs with
  | '"' :: '"' :: '"' :: r =>
    (basicString true (afterBreak r)).map fun (s, t) => withLastQuotes '"' s t
  | '"' :: r => basicString false r
  | '\x27' :: '\x27' :: '\x27' :: r =>
    match cutAtWord ['\x27', '\x27', '\x27'] (afterBreak r) with
    | none => .error .malformed
    | some (s, t) =>
      if s.any isIllegalInLines then .error .malformed else .ok (withLastQuotes '\x27' s t)
  | '\x27' :: r => literalString r
  | _ => .error .malformed

/-- A number of exactly `width` digits within bounds. -/
def fixedNumber? (width low high : Nat) (cs : List Char) : Option (Nat × List Char) :=
  let ds := cs.take width
  if ds.length < width || !ds.all Text.isDigitAscii then none
  else
    let n := Numeral.ofDigits (ds.map fun d => d.toNat - 48)
    if low ≤ n ∧ n ≤ high then some (n, cs.drop width) else none

/-- The text after a character that passes the test. -/
def afterChar? (p : Char → Bool) : List Char → Option (List Char)
  | [] => none
  | c :: r => if p c then some r else none

/-- The text after a time of day. -/
def afterTime? (cs : List Char) : Option (List Char) := do
  let (_, cs) ← fixedNumber? 2 0 23 cs
  let (_, cs) ← fixedNumber? 2 0 59 (← afterChar? (· == ':') cs)
  let (_, cs) ← fixedNumber? 2 0 59 (← afterChar? (· == ':') cs)
  match cs with
  | '.' :: r =>
    if (r.head?.any Text.isDigitAscii) then return r.dropWhile Text.isDigitAscii else return cs
  | _ => return cs

/-- The text after the offset of a clock. -/
def afterOffset? (cs : List Char) : Option (List Char) :=
  match afterChar? (fun c => c == 'Z' || c == 'z') cs with
  | some r => some r
  | none => do
    let (_, cs) ← fixedNumber? 2 0 23 (← afterChar? (fun c => c == '+' || c == '-') cs)
    let (_, cs) ← fixedNumber? 2 0 59 (← afterChar? (· == ':') cs)
    return cs

/-- A date as it is written and the text after it and after its time, if it has one. -/
def date? (cs : List Char) : Option (Calendar.Date × List Char) := do
  let (year, cs) ← fixedNumber? 4 0 9999 cs
  let (month, cs) ← fixedNumber? 2 1 12 (← afterChar? (· == '-') cs)
  let (day, cs) ← fixedNumber? 2 1 31 (← afterChar? (· == '-') cs)
  let rest := do
    let r ← afterTime? (← afterChar? (fun c => c == 'T' || c == 't' || c == ' ') cs)
    return (afterOffset? r).getD r
  return (⟨year, month, day⟩, rest.getD cs)

/-- The part of a text that stands before another that ends it. -/
def headBefore (rest cs : List Char) : String := String.ofList (cs.take (cs.length - rest.length))

/-- Digits with single underscores between them, and the text after them. -/
def digitRun (p : Char → Bool) (cs : List Char) : List Char × List Char :=
  match cs with
  | [] => ([], [])
  | c :: r => if p c then let (ds, t) := go r; (c :: ds, t) else ([], c :: r)
where
  /-- The digits after the first. -/
  go : List Char → List Char × List Char
    | '_' :: d :: r =>
      if p d then
        let (ds, t) := go r
        (d :: ds, t)
      else ([], '_' :: d :: r)
    | c :: r =>
      if p c then
        let (ds, t) := go r
        (c :: ds, t)
      else ([], c :: r)
    | [] => ([], [])

/-- The digits of a number as one number in a base. -/
def ofDigitsIn (base : Nat) (ds : List Char) : Nat :=
  ds.foldl (fun n d => base * n + (hexValue? d).getD 0) 0

/-- A whole number in another base, after its zero. -/
def basedInteger? : List Char → Option (Toml × List Char)
  | c :: r =>
    let base := if c == 'x' then 16 else if c == 'b' then 2 else if c == 'o' then 8 else 0
    let (ds, t) := digitRun (fun d => (hexValue? d).any (· < base)) r
    if ds.isEmpty then none else some (.integer (ofDigitsIn base ds), t)
  | [] => none

/-- The whole part of a decimal number: a lone zero, or digits that start with no zero. -/
def wholePart : List Char → List Char × List Char
  | '0' :: r => (['0'], r)
  | cs => digitRun Text.isDigitAscii cs

/-- A point and digits. -/
def fractionPart : List Char → List Char × List Char
  | '.' :: r =>
    let (ds, t) := digitRun Text.isDigitAscii r
    if ds.isEmpty then ([], '.' :: r) else (ds, t)
  | cs => ([], cs)

/-- A power of ten. -/
def exponentPart : List Char → Option Int × List Char
  | [] => (none, [])
  | c :: r =>
    if c == 'e' || c == 'E' then
      let (negative, body) := Numeral.signAndRest r
      let (ds, t) := digitRun Text.isDigitAscii body
      if ds.isEmpty then (none, c :: r)
      else
        let n : Int := ofDigitsIn 10 ds
        (some (if negative then -n else n), t)
    else (none, c :: r)

/-- A decimal number, if one starts here. -/
def decimal? (cs : List Char) : Option (Except Fault (Rest Toml)) :=
  let (negative, body) := Numeral.signAndRest cs
  let (whole, r) := wholePart body
  if whole.isEmpty then none
  else
    let (fraction, r) := fractionPart r
    let (exponent, r) := exponentPart r
    some <|
      if fraction.isEmpty && exponent.isNone then
        if Numeral.maxDigits < whole.length then .error (.longInteger whole.length)
        else
          let n : Int := ofDigitsIn 10 whole
          .ok (.integer (if negative then -n else n), r)
      else
        .ok (.real (.ofDecimal negative (ofDigitsIn 10 (whole ++ fraction))
          (exponent.getD 0 - fraction.length)), r)

/-- A number that is infinite or undefined. -/
def specialNumber? (cs : List Char) : Option (Toml × List Char) :=
  let (negative, body) := Numeral.signAndRest cs
  if "inf".toList.isPrefixOf body then some (.real (.infinite negative), body.drop 3)
  else if "nan".toList.isPrefixOf body then some (.real .nan, body.drop 3)
  else none

/-- A whole number in another base, if one starts here. -/
def based? : List Char → Option (Toml × List Char)
  | '0' :: r => basedInteger? r
  | _ => none

/-- A date, a time or a number. -/
def numeral (cs : List Char) : Except Fault (Rest Toml) :=
  match date? cs with
  | some (d, r) => if d.isValid then .ok (.moment (headBefore r cs), r) else .error .malformed
  | none =>
    match afterTime? cs with
    | some r => .ok (.moment (headBefore r cs), r)
    | none =>
      match based? cs with
      | some found => .ok found
      | none =>
        match decimal? cs with
        | some found => found
        | none =>
          match specialNumber? cs with
          | some found => .ok found
          | none => .error .malformed

end Toml
end CodeSurvey
