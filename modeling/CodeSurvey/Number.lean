/-
# Numbers as they are given

A number from outside is an integer of any size or a binary64 number; as text it may also be written
out. Arithmetic on it happens in binary64, and an integer beyond that range is refused.
-/

import CodeSurvey.Failure
import CodeSurvey.Number.Numeral

namespace CodeSurvey

/-- A number, or the text of one. -/
inductive Amount
  | int (n : Int)
  | real (x : Binary64)
  | text (s : String)

/-- The amount in binary64. -/
def Amount.toBinary64 : Amount → Except Failure Binary64
  | int n =>
    match Binary64.ofInt? n with
    | some x => .ok x
    | none => .error .integerTooLarge
  | real x => .ok x
  | text s =>
    match Numeral.real? s.toList with
    | some x => .ok x
    | none => .error (.notANumber s)

/-- An integer in decimal digits, unless it has more of them than can be converted. -/
def Numeral.written (n : Int) : Except Failure String :=
  if isEndless n then .error .endlessInteger else .ok (toString n)

/-- A quotient of integers in binary64. -/
def ratio (num : Int) (den : Nat) : Except Failure Binary64 :=
  match Binary64.ofRatio num den with
  | .infinite _ => .error .ratioTooLarge
  | x => .ok x

/-- The integer nearest to a number, a tie to the even one. -/
def Binary64.roundToInt : Binary64 → Except Failure Int
  | .nan => .error (.notFinite true)
  | .infinite _ => .error (.notFinite false)
  | x =>
    match x.toInt? with
    | some n => .ok n
    | none => .error (.notFinite true)

/-- One hundred. -/
def hundred : Binary64 := Binary64.ofInt 100

/-- The number kept between zero and one hundred; an undefined one becomes one hundred. -/
def Binary64.clampPercent (x : Binary64) : Binary64 :=
  Binary64.max Binary64.zero (Binary64.min hundred x)

end CodeSurvey
