/-
# Reading JSON

A text is read by one function that walks over its characters with a stack of the containers still
open. It is in one of three modes: a value is due, a member's name is due, or a value has just been
read and is to be put into the innermost container. Every step takes characters away, which is why
the walk ends.

A fault has a cause and a place, counted in characters, and is reported with line and column.
Besides the numbers of JSON the words `NaN`, `Infinity` and `-Infinity` are read. An integer too
long to convert is refused, and so is a container for which there is no room inside the others. For
an escape that is half of a surrogate pair its stand-in is read.
-/

import CodeSurvey.Json
import CodeSurvey.Keyed
import CodeSurvey.Number.Numeral
import CodeSurvey.Text.Utf8

namespace CodeSurvey
namespace Json

/-- Why a text is not JSON. -/
inductive Cause
  | byteOrderMark
  | expectedValue
  | expectedName
  | expectedColon
  | expectedComma
  | extraData
  | unterminatedString
  | controlCharacter
  | badEscape
  | badCodePoint
  | longInteger (digits : Nat)
  | tooDeep (container : String)
  deriving DecidableEq, Repr

/-- What the reader of a container does, in the words of a failure. -/
def whileDecoding (container : String) : String :=
  " while decoding a JSON " ++ container ++ " from a unicode string"

/-- The wording of a cause. -/
def Cause.text : Cause → String
  | .byteOrderMark => "Unexpected UTF-8 BOM (decode using utf-8-sig)"
  | .expectedValue => "Expecting value"
  | .expectedName => "Expecting property name enclosed in double quotes"
  | .expectedColon => "Expecting ':' delimiter"
  | .expectedComma => "Expecting ',' delimiter"
  | .extraData => "Extra data"
  | .unterminatedString => "Unterminated string starting at"
  | .controlCharacter => "Invalid control character at"
  | .badEscape => "Invalid \\escape"
  | .badCodePoint => "Invalid \\uXXXX escape"
  | .longInteger n =>
    "Exceeds the limit (4300 digits) for integer string conversion: value has " ++ toString n ++
      " digits; use sys.set_int_max_str_digits() to increase the limit"
  | .tooDeep container => "maximum recursion depth exceeded" ++ whileDecoding container

/-- A cause and the number of characters that were left at its place. -/
structure Fault where
  cause : Cause
  left : Nat
  deriving DecidableEq, Repr

/-- The wording of a fault in a text, with its line, column and place. -/
def Fault.message (f : Fault) (cs : List Char) : String :=
  match f.cause with
  | .longInteger _ => f.cause.text
  | .tooDeep _ => f.cause.text
  | _ =>
    let place := cs.length - f.left
    let head := cs.take place
    let column := (head.reverse.takeWhile (· != '\n')).length + 1
    f.cause.text ++ ": line " ++ toString (head.count '\n' + 1) ++ " column " ++ toString column ++
      " (char " ++ toString place ++ ")"

/-- The blanks of JSON. -/
def isSpace (c : Char) : Bool := c == ' ' || c == '\t' || c == '\n' || c == '\r'

/-- The text after its leading blanks. -/
def skip (cs : List Char) : List Char := cs.dropWhile isSpace

theorem length_dropWhile_le {α : Type} (p : α → Bool) (cs : List α) :
    (cs.dropWhile p).length ≤ cs.length := (List.dropWhile_sublist p).length_le

theorem length_skip_le (cs : List Char) : (skip cs).length ≤ cs.length := length_dropWhile_le _ cs

/-- The value of a hexadecimal digit. -/
def hexValue? (c : Char) : Option Nat :=
  if '0' ≤ c ∧ c ≤ '9' then some (c.toNat - 48)
  else if 'a' ≤ c ∧ c ≤ 'f' then some (c.toNat - 87)
  else if 'A' ≤ c ∧ c ≤ 'F' then some (c.toNat - 55)
  else none

/-- Four hexadecimal digits at the head of a text, if they are there. -/
def fourHex? : List Char → Option Nat
  | a :: b :: c :: d :: _ => do
    return (((← hexValue? a) * 16 + (← hexValue? b)) * 16 + (← hexValue? c)) * 16 + (← hexValue? d)
  | _ => none

/-- The character that a letter after a backslash stands for. -/
def escaped? : Char → Option Char
  | '"' => some '"'
  | '\\' => some '\\'
  | '/' => some '/'
  | 'b' => some '\x08'
  | 'f' => some '\x0c'
  | 'n' => some '\n'
  | 'r' => some '\r'
  | 't' => some '\t'
  | _ => none

/-- The code unit after `\u` and how many characters it takes beyond those four digits: six more
when a second half follows that completes a pair. -/
def codePoint? (cs : List Char) : Option (Nat × Nat) :=
  match fourHex? cs with
  | none => none
  | some hi =>
    if 0xD800 ≤ hi ∧ hi < 0xDC00 ∧ !(cs.drop 10).isEmpty ∧ (cs.drop 4).take 2 = ['\\', 'u'] then
      match fourHex? (cs.drop 6) with
      | none => none
      | some lo =>
        if 0xDC00 ≤ lo ∧ lo < 0xE000 then some (0x10000 + (hi - 0xD800) * 1024 + (lo - 0xDC00), 6)
        else some (hi, 0)
    else some (hi, 0)

/-- The character of a code point; half of a surrogate pair, which is none, is stood in for. -/
def charOf (n : Nat) : Char := if 0xD800 ≤ n ∧ n < 0xE000 then Utf8.standIn n else Char.ofNat n

/-- Where the code unit that `codePoint?` refuses stands, counted from its first digit. -/
def badDigitOffset (cs : List Char) : Nat := if (fourHex? cs).isSome then 6 else 0

/-- Reads a string after its opening quote; `start` is the text from the quote on. -/
def string (start : List Char) (cs : List Char) : Except Fault (List Char × List Char) :=
  match cs with
  | [] => .error ⟨.unterminatedString, start.length⟩
  | '"' :: r => .ok ([], r)
  | '\\' :: r =>
    match r with
    | [] => .error ⟨.unterminatedString, start.length⟩
    | 'u' :: r =>
      if (r.drop 4).isEmpty then .error ⟨.badCodePoint, r.length + 1⟩
      else
        match codePoint? r with
        | none => .error ⟨.badCodePoint, r.length + 1 - badDigitOffset r⟩
        | some (n, more) => (string start (r.drop (4 + more))).map fun (s, t) => (charOf n :: s, t)
    | e :: r =>
      match escaped? e with
      | none => .error ⟨.badEscape, r.length + 2⟩
      | some c => (string start r).map fun (s, t) => (c :: s, t)
  | c :: r =>
    if c.toNat < 32 then .error ⟨.controlCharacter, r.length + 1⟩
    else (string start r).map fun (s, t) => (c :: s, t)
termination_by cs.length
decreasing_by all_goals simp only [List.length_cons, List.length_drop]; omega

theorem string_length_le {start cs s t : List Char} (h : string start cs = .ok (s, t)) :
    t.length ≤ cs.length := by
  fun_induction string start cs generalizing s t with
  | case1 => cases h
  | case2 r => cases h; simp
  | case3 => cases h
  | case4 => cases h
  | case5 => cases h
  | case6 r _ n more hc ih =>
    cases hs : string start (r.drop (4 + more)) with
    | error e => rw [hs] at h; cases h
    | ok p =>
      rw [hs] at h
      cases h
      have := ih hs
      simp only [List.length_drop] at this
      simp only [List.length_cons]
      omega
  | case7 => cases h
  | case8 e r _ c hc ih =>
    cases hs : string start r with
    | error e => rw [hs] at h; cases h
    | ok p =>
      rw [hs] at h
      cases h
      have := ih hs
      simp only [List.length_cons]
      omega
  | case9 => cases h
  | case10 c r _ _ hc ih =>
    cases hs : string start r with
    | error e => rw [hs] at h; cases h
    | ok p =>
      rw [hs] at h
      cases h
      have := ih hs
      simp only [List.length_cons]
      omega

/-- The integer part of a number: a lone zero, or digits that start with no zero. -/
def integerPart : List Char → List Char × List Char
  | '0' :: r => (['0'], r)
  | cs => Text.span Text.isDigitAscii cs

/-- A point and the digits after it, if a digit follows the point. -/
def fractionPart : List Char → List Char × List Char
  | '.' :: r =>
    let (ds, t) := Text.span Text.isDigitAscii r
    if ds.isEmpty then ([], '.' :: r) else (ds, t)
  | cs => ([], cs)

/-- The exponent after a mark, if it has digits. -/
def exponentPart : List Char → Option Int × List Char
  | [] => (none, [])
  | c :: r =>
    if c == 'e' || c == 'E' then
      let (negative, body) := Numeral.signAndRest r
      let (ds, t) := Text.span Text.isDigitAscii body
      if ds.isEmpty then (none, c :: r)
      else
        let n : Int := Numeral.ofDigits (ds.map fun d => d.toNat - 48)
        (some (if negative then -n else n), t)
    else (none, c :: r)

/-- The digits of a text as one number. -/
def digitsValue (ds : List Char) : Nat := Numeral.ofDigits (ds.map fun d => d.toNat - 48)

/-- A number without its sign at the head of a text. -/
def number (negative : Bool) (cs : List Char) : Except Fault (Json × List Char) :=
  let (whole, r) := integerPart cs
  if whole.isEmpty then .error ⟨.expectedValue, cs.length + if negative then 1 else 0⟩
  else
    let (fraction, r) := fractionPart r
    let (exponent, r) := exponentPart r
    if fraction.isEmpty && exponent.isNone then
      if Numeral.maxDigits < whole.length then .error ⟨.longInteger whole.length, cs.length⟩
      else
        let n : Int := digitsValue whole
        .ok (.int (if negative then -n else n), r)
    else
      .ok (.real (.ofDecimal negative (digitsValue (whole ++ fraction))
        (exponent.getD 0 - fraction.length)), r)

/-- What stands where a value begins. -/
inductive Opening
  | openArray (rest : List Char)
  | openObject (rest : List Char)
  | scalar (v : Json) (rest : List Char)

/-- The text after what stands where a value begins. -/
def Opening.rest : Opening → List Char
  | openArray r => r
  | openObject r => r
  | scalar _ r => r

/-- The text after a word, if it starts with the word. -/
def afterWord? (word cs : List Char) : Option (List Char) :=
  if word.isPrefixOf cs then some (cs.drop word.length) else none

/-- A word that stands for a value, at the head of a text. -/
def word? (cs : List Char) : Option (Json × List Char) :=
  [("null", null), ("true", bool true), ("false", bool false), ("NaN", real .nan),
    ("Infinity", real (.infinite false)), ("-Infinity", real (.infinite true))].findSome?
    fun (w, v) => (afterWord? w.toList cs).map fun r => (v, r)

/-- The beginning of a value. -/
def opening (cs : List Char) : Except Fault Opening :=
  match cs with
  | '[' :: r => .ok (.openArray r)
  | '\x7b' :: r => .ok (.openObject r)
  | '"' :: r => (string cs r).map fun (s, t) => .scalar (.text (String.ofList s)) t
  | _ =>
    match word? cs with
    | some (v, r) => .ok (.scalar v r)
    | none =>
      match cs with
      | '-' :: r => (number true r).map fun (v, t) => .scalar v t
      | _ => (number false cs).map fun (v, t) => .scalar v t

theorem length_span_le (p : Char → Bool) (cs : List Char) :
    (Text.span p cs).2.length ≤ cs.length := length_dropWhile_le p cs

theorem length_fractionPart_le (cs : List Char) : (fractionPart cs).2.length ≤ cs.length := by
  unfold fractionPart
  split
  · rename_i r
    have := length_span_le Text.isDigitAscii r
    simp only
    split
    · simp
    · simp
      omega
  · simp

theorem length_signAndRest_le (cs : List Char) : (Numeral.signAndRest cs).2.length ≤ cs.length := by
  unfold Numeral.signAndRest
  split <;> simp

theorem length_exponentPart_le (cs : List Char) : (exponentPart cs).2.length ≤ cs.length := by
  unfold exponentPart
  split
  · simp
  · rename_i c r
    split
    · simp only
      have h1 := length_signAndRest_le r
      have h2 := length_span_le Text.isDigitAscii (Numeral.signAndRest r).2
      split
      · simp
      · simp only [List.length_cons]; omega
    · simp

theorem length_integerPart_lt {cs : List Char} (h : (integerPart cs).1.isEmpty = false) :
    (integerPart cs).2.length < cs.length := by
  unfold integerPart at *
  split
  · simp
  · rename_i hn
    simp only [Text.span] at *
    have hl := congrArg List.length
      (List.takeWhile_append_dropWhile (p := Text.isDigitAscii) (l := cs))
    rw [List.length_append] at hl
    cases ht : cs.takeWhile Text.isDigitAscii with
    | nil => simp_all
    | cons a l => rw [ht] at hl; simp only [List.length_cons] at hl; omega

theorem number_length_lt {negative : Bool} {cs r : List Char} {v : Json}
    (h : number negative cs = .ok (v, r)) : r.length < cs.length := by
  unfold number at h
  simp only at h
  have h2 := length_fractionPart_le (integerPart cs).2
  have h3 := length_exponentPart_le (fractionPart (integerPart cs).2).2
  by_cases h0 : (integerPart cs).1.isEmpty
  · simp [h0] at h
  · have h1 := length_integerPart_lt (by simpa using h0)
    simp only [h0, Bool.false_eq_true, if_false] at h
    split at h
    · split at h
      · cases h
      · cases h; omega
    · cases h; omega

theorem word_length_lt {cs r : List Char} {v : Json} (h : word? cs = some (v, r)) :
    r.length < cs.length := by
  obtain ⟨⟨w, u⟩, hw, hr⟩ := List.exists_of_findSome?_eq_some h
  simp only [afterWord?, Option.map_eq_some_iff] at hr
  obtain ⟨t, ht, hp⟩ := hr
  split at ht
  · rename_i hpre
    cases ht
    cases hp
    have hle := (List.isPrefixOf_iff_prefix.1 hpre).length_le
    simp only [List.length_drop]
    have : 0 < w.toList.length := by
      simp only [List.mem_cons, Prod.mk.injEq, List.not_mem_nil, or_false] at hw
      rcases hw with h | h | h | h | h | h <;> rw [h.1] <;> decide
    omega
  · cases ht

/-- The beginning of a value takes characters away. -/
theorem opening_length_lt {cs : List Char} {o : Opening} (h : opening cs = .ok o) :
    o.rest.length < cs.length := by
  unfold opening at h
  split at h
  · cases h; simp [Opening.rest]
  · cases h; simp [Opening.rest]
  · rename_i r
    cases hs : string ('"' :: r) r with
    | error e => rw [hs] at h; cases h
    | ok p =>
      rw [hs] at h
      cases h
      have := string_length_le hs
      simp only [Opening.rest, List.length_cons]
      omega
  · split at h
    · rename_i hw
      cases h
      exact word_length_lt hw
    · split at h
      · rename_i r _ _ _ _
        cases hs : number true r with
        | error e => rw [hs] at h; cases h
        | ok p =>
          rw [hs] at h
          cases h
          have := number_length_lt hs
          simp only [Opening.rest, List.length_cons]
          omega
      · cases hs : number false cs with
        | error e => rw [hs] at h; cases h
        | ok p =>
          rw [hs] at h
          cases h
          exact number_length_lt hs

/-- A container that is still open: the items so far, or the members so far and the name of the
next, the last first. -/
inductive Frame
  | items (done : List Json)
  | members (done : List (String × Json)) (name : String)

/-- What the reader waits for. -/
inductive Mode
  | value
  | name (done : List (String × Json))
  | placed (v : Json)

set_option linter.unusedVariables false in
/-- Reads on with the given containers open, where there is room for so many of
them inside one another. -/
def walk (room : Nat) (stack : List Frame) (mode : Mode) (cs : List Char) :
    Except Fault (Json × List Char) :=
  match mode with
  | .value =>
    match ho : opening cs with
    | .error f => .error f
    | .ok (.scalar v r) => walk room stack (.placed v) r
    | .ok (.openArray r) =>
      if room ≤ stack.length then .error ⟨.tooDeep "array", cs.length⟩
      else
        match hr : skip r with
        | ']' :: t => walk room stack (.placed (.array [])) t
        | t => walk room (.items [] :: stack) .value t
    | .ok (.openObject r) =>
      if room ≤ stack.length then .error ⟨.tooDeep "object", cs.length⟩
      else
        match hr : skip r with
        | '\x7d' :: t => walk room stack (.placed (.object [])) t
        | t => walk room stack (.name []) t
  | .name done =>
    match cs with
    | '"' :: r =>
      match hs : string cs r with
      | .error f => .error f
      | .ok (s, t) =>
        match ht : skip t with
        | ':' :: u => walk room (.members done (String.ofList s) :: stack) .value (skip u)
        | u => .error ⟨.expectedColon, u.length⟩
    | _ => .error ⟨.expectedName, cs.length⟩
  | .placed v =>
    match stack with
    | [] => .ok (v, cs)
    | .items done :: stack =>
      match hc : skip cs with
      | ']' :: r => walk room stack (.placed (.array (done.reverse ++ [v]))) r
      | ',' :: r => walk room (.items (v :: done) :: stack) .value (skip r)
      | r => .error ⟨.expectedComma, r.length⟩
    | .members done name :: stack =>
      match hc : skip cs with
      | '\x7d' :: r => walk room stack (.placed (.object (Keyed.assign name v done))) r
      | ',' :: r => walk room stack (.name (Keyed.assign name v done)) (skip r)
      | r => .error ⟨.expectedComma, r.length⟩
termination_by cs.length
decreasing_by
  · exact opening_length_lt ho
  · have h := opening_length_lt ho
    have := length_skip_le r; rw [hr] at this
    simp only [Opening.rest, List.length_cons] at *; omega
  · have h := opening_length_lt ho
    have := length_skip_le r; rw [← hr]
    simp only [Opening.rest] at *; omega
  · have h := opening_length_lt ho
    have := length_skip_le r; rw [hr] at this
    simp only [Opening.rest, List.length_cons] at *; omega
  · have h := opening_length_lt ho
    have := length_skip_le r; rw [← hr]
    simp only [Opening.rest] at *; omega
  · have h1 := length_skip_le t; rw [ht] at h1; simp only [List.length_cons] at h1
    have h2 := string_length_le hs
    have h3 := length_skip_le u
    simp only [List.length_cons]; omega
  · have := length_skip_le cs; rw [hc] at this; simp only [List.length_cons] at this; omega
  · have h1 := length_skip_le cs; rw [hc] at h1; simp only [List.length_cons] at h1
    have h2 := length_skip_le r; omega
  · have := length_skip_le cs; rw [hc] at this; simp only [List.length_cons] at this; omega
  · have h1 := length_skip_le cs; rw [hc] at h1; simp only [List.length_cons] at h1
    have h2 := length_skip_le r; omega

/-- Reads a whole text as one value, where there is room for so many
containers inside one another. -/
def readChars (room : Nat) (cs : List Char) : Except Fault Json :=
  match cs with
  | '\ufeff' :: _ => .error ⟨.byteOrderMark, cs.length⟩
  | _ =>
    match walk room [] .value (skip cs) with
    | .error f => .error f
    | .ok (v, r) =>
      match skip r with
      | [] => .ok v
      | t => .error ⟨.extraData, t.length⟩

/-- Reads a string as one value. -/
def read (s : String) (room : Nat := usualRoom) : Except Fault Json := readChars room s.toList

end Json
end CodeSurvey
