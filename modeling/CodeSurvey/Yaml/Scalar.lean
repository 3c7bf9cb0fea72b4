/-
# Values of YAML scalars

What the text of a scalar stands for under the tags that need reading: truth values, integers, real
numbers, dates and bytes. Underscores in numbers are passed over, and parts between colons are in
base sixty. A date must exist, and its clock is less than a day away from universal time.

Bytes are written in base sixty-four: four characters of the alphabet stand for three bytes, and
equals signs fill up the last four. Characters beside the alphabet are passed over, and a full last
group ends the text. What is left of a group that is neither full nor filled up is an error.
-/

import CodeSurvey.Calendar
import CodeSurvey.Number.Numeral
import CodeSurvey.Text.Case
import CodeSurvey.Yaml.Fault
import CodeSurvey.Yaml.Tag

namespace CodeSurvey
namespace Yaml
namespace Scalar

/-- The truth value of a word. -/
def boolean (text : String) : Except ScalarFault Bool :=
  let w := Text.lowered text
  if Tag.trueWords.contains w then .ok true
  else if Tag.falseWords.contains w then .ok false
  else .error (.notBoolean w)

/-- The digits of a number in a base; not empty. -/
def digitsIn? (base : Nat) (cs : List Char) : Option (List Nat) :=
  let value (c : Char) : Option Nat :=
    match Text.digitValue? c with
    | some n => some n
    | none =>
      if Text.isLowerAscii c then some (c.toNat - 87)
      else if Text.isUpperAscii c then some (c.toNat - 55)
      else none
  if cs.isEmpty then none else cs.mapM fun c => (value c).filter (· < base)

/-- A number in a base without the mark of the base, which may stand before its digits. -/
def afterBaseMark (base : Nat) : List Char → List Char
  | '0' :: c :: r =>
    let marks := [(16, "xX"), (8, "oO"), (2, "bB")]
    if ((marks.lookup base).getD "").toList.contains c then r else '0' :: c :: r
  | cs => cs

/-- An integer in a base, with a sign or none, surrounded by blanks at will. -/
def integerIn (base : Nat) (cs : List Char) : Except ScalarFault Int :=
  let (negative, body) := Numeral.signAndRest (Text.trim cs)
  match digitsIn? base (afterBaseMark base body) with
  | none => .error (.notInteger base (String.ofList cs))
  | some ds =>
    if base = 10 && Numeral.maxDigits < ds.length then .error (.longInteger ds.length)
    else
      let n : Nat := ds.foldl (fun n d => base * n + d) 0
      .ok (if negative then -(n : Int) else n)

/-- A number whose parts in base sixty are given. -/
def ofSixtieths (parts : List Int) : Int := parts.foldl (fun n d => 60 * n + d) 0

/-- A text without underscores, cut after its sign. -/
def signedBody (cs : List Char) : Except ScalarFault (Bool × List Char) :=
  match cs.filter (· != '_') with
  | [] => .error .empty
  | cs => .ok (Numeral.signAndRest cs)

/-- An integer: the head of its text gives its base. -/
def integer (text : String) : Except ScalarFault Int := do
  let (negative, body) ← signedBody text.toList
  let n ← match body with
    | [] => throw .empty
    | ['0'] => pure 0
    | '0' :: 'b' :: r => integerIn 2 r
    | '0' :: 'x' :: r => integerIn 16 r
    | '0' :: r => integerIn 8 ('0' :: r)
    | cs =>
      if cs.contains ':' then do
        let parts ← (Text.fields ':' cs).mapM (integerIn 10)
        pure (ofSixtieths parts)
      else integerIn 10 cs
  return if negative then -n else n

/-- A real number as it is written. -/
def written (cs : List Char) : Except ScalarFault Binary64 :=
  match Numeral.real? cs with
  | some x => .ok x
  | none => .error (.notReal (String.ofList cs))

/-- A number whose parts in base sixty are given, the last first, summed up from the last. -/
def sumOfSixtieths (parts : List Binary64) : Except ScalarFault Binary64 :=
  parts.zipIdx.foldlM
    (fun sum (x, place) =>
      match Binary64.ofInt? (Nat.pow 60 place) with
      | some unit => .ok (sum + x * unit)
      | none => .error .tooManyPlaces)
    Binary64.zero

/-- A real number. -/
def real (text : String) : Except ScalarFault Binary64 := do
  let (negative, body) ← signedBody (Text.lower text.toList)
  let x ←
    if body == ".inf".toList then pure (Binary64.infinite false)
    else if body == ".nan".toList then pure Binary64.nan
    else if body.contains ':' then do
      let parts ← (Text.fields ':' body).mapM written
      sumOfSixtieths parts.reverse
    else written body
  return if negative then -x else x

open Pattern in
/-- The form of a date whose parts are captured. -/
def momentForm : Pattern :=
  let digit := char Text.isDigitAscii
  let two := seq digit digit
  let oneOrTwo := seq digit (optional digit)
  let gaps := char fun c => c == ' ' || c == '\t'
  all
    [capture 1 (seq two two), one '-', capture 2 oneOrTwo, one '-', capture 3 oneOrTwo,
      optional
        (all
          [orElse (char fun c => c == 'T' || c == 't') (some1 gaps), capture 4 oneOrTwo, one ':',
            capture 5 two, one ':', capture 6 two, optional (seq (one '.') (many digit)),
            optional
              (seq (many gaps)
                (orElse (one 'Z')
                  (all
                    [capture 7 (char fun c => c == '-' || c == '+'), capture 8 oneOrTwo,
                      optional (seq (one ':') (capture 9 two))])))]),
      textEnd]

/-- A span of time of whole seconds, in days and the seconds of a day. -/
def spanText (seconds : Int) : String :=
  let days := seconds.fdiv 86400
  let rest := seconds.fmod 86400
  "datetime.timedelta(days=" ++ toString days ++
    (if rest = 0 then "" else ", seconds=" ++ toString rest) ++ ")"

/-- An offset must be less than a day. -/
def checkOffset (seconds : Int) : Except ScalarFault Unit :=
  if seconds.natAbs < 86400 then .ok ()
  else
    .error (.noSuchMoment
      ("offset must be a timedelta strictly between -timedelta(hours=24) and timedelta(hours=24), not " ++
        spanText seconds ++ "."))

/-- A date must exist. -/
def checkDate (year month day : Nat) : Except ScalarFault Unit :=
  if year = 0 then .error (.noSuchMoment "year 0 is out of range")
  else if month < 1 ∨ 12 < month then .error (.noSuchMoment "month must be in 1..12")
  else if day < 1 ∨ Calendar.daysInMonth year month < day then
    .error (.noSuchMoment "day is out of range for month")
  else .ok ()

/-- A time of day must exist. -/
def checkTime (hour minute second : Nat) : Except ScalarFault Unit :=
  if 23 < hour then .error (.noSuchMoment "hour must be in 0..23")
  else if 59 < minute then .error (.noSuchMoment "minute must be in 0..59")
  else if 59 < second then .error (.noSuchMoment "second must be in 0..59")
  else .ok ()

/-- A text must be a date. -/
def checkMoment (text : String) : Except ScalarFault Unit :=
  match momentForm.matchStart? text.toList with
  | none => .error .notMoment
  | some found => do
    let part (n : Nat) : Option Nat :=
      (found.group? n).map fun ds => Numeral.ofDigits (ds.map fun c => c.toNat - 48)
    let number (n : Nat) : Nat := (part n).getD 0
    match found.group? 7 with
    | some s =>
      let seconds : Int := (number 8 * 60 + number 9 : Nat) * 60
      checkOffset (if s == ['-'] then -seconds else seconds)
    | none => pure ()
    checkDate (number 1) (number 2) (number 3)
    checkTime (number 4) (number 5) (number 6)

/-- The value of a character of the alphabet. -/
def sextet? (c : Char) : Option Nat :=
  if 'A' ≤ c ∧ c ≤ 'Z' then some (c.toNat - 65)
  else if 'a' ≤ c ∧ c ≤ 'z' then some (c.toNat - 71)
  else if '0' ≤ c ∧ c ≤ '9' then some (c.toNat + 4)
  else if c = '+' then some 62
  else if c = '/' then some 63
  else none

/-- The bytes of a text, `place` characters of a group being read, with `left` as what they leave
over and `fills` equals signs after them. -/
def sextetBytes (place left fills : Nat) : List Char → Option (List UInt8)
  | [] => if place = 0 then some [] else none
  | c :: r =>
    if c = '=' then
      if 2 ≤ place then if 4 ≤ place + fills + 1 then some []
      else sextetBytes place left (fills + 1) r
      else sextetBytes place left fills r
    else
      match sextet? c with
      | none => sextetBytes place left fills r
      | some v =>
        match place with
        | 0 => sextetBytes 1 v 0 r
        | 1 => (sextetBytes 2 (v % 16) 0 r).map ((left * 4 + v / 16).toUInt8 :: ·)
        | 2 => (sextetBytes 3 (v % 4) 0 r).map ((left * 16 + v / 4).toUInt8 :: ·)
        | _ => (sextetBytes 0 0 0 r).map ((left * 64 + v).toUInt8 :: ·)

/-- The bytes that a text in base sixty-four stands for. -/
def base64? (cs : List Char) : Option (List UInt8) := sextetBytes 0 0 0 cs

end Scalar
end Yaml
end CodeSurvey
