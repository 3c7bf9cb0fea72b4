/-
# Binary64 numbers in decimal

Reading takes the number nearest to a decimal. Writing has three forms, all exact:

* `shortest`: the fewest digits that read back as the same number, of those the nearest to it;
  positional for magnitudes from 10⁻⁴ up to 10¹⁶, otherwise with an exponent of two digits at least,
  and always with a point or an exponent;
* `sixDigits`: six significant digits, trailing zeros removed, an exponent below 10⁻⁴ and from 10⁶;
* `wholeDigits`: rounded to an integer, a tie to the even one.

`roundTo` rounds to decimal places: the number nearest to the decimal nearest to the exact value.
A number stands for the reals that round to it: half a grid step to either side, ends included when
its significand is even, the lower half step halved at a power of two.
-/

import CodeSurvey.Number.Binary64

namespace CodeSurvey
namespace Binary64

/-- The number of decimal digits of a natural number, one for zero. -/
def digitCount (n : Nat) : Nat := (Nat.toDigits 10 n).length

/-- The number nearest to `digits · 10 ^ exponent`. -/
def ofDecimal (negative : Bool) (digits : Nat) (exponent : Int) : Binary64 :=
  if digits = 0 then signedZero negative
  else
    let top := exponent + digitCount digits
    if 320 < top then .infinite negative
    else if top < -340 then signedZero negative
    else if 0 ≤ exponent then round negative (digits * Nat.pow 10 exponent.toNat * unitsPerOne) 1
    else round negative (digits * unitsPerOne) (Nat.pow 10 (-exponent).toNat)

/-- Digits without leading or trailing zeros and a place: the value is `0.digits · 10 ^ point`. -/
structure Digits where
  digits : List Char
  point : Int
  deriving DecidableEq, Repr

/-- The place of the first digit: the `p` with `10 ^ (p - 1) ≤ num / den < 10 ^ p`. -/
def leadingPlace (num den : Nat) : Int :=
  if den ≤ num then digitCount (num / den)
  else
    match (List.range 400).find? fun k => den ≤ num * Nat.pow 10 (k + 1) with
    | some k => -(k : Int)
    | none => -400

/-- `num / den` divided by `10 ^ e`, as a fraction. -/
def scaledDown (num den : Nat) (e : Int) : Nat × Nat :=
  if 0 ≤ e then (num, den * Nat.pow 10 e.toNat) else (num * Nat.pow 10 (-e).toNat, den)

/-- The point of the decimal grid of step `10 ^ e` that is nearest to `num / den` among the two
neighbours that lie between `low` and `high`, all over the same divisor. -/
def gridHit (num low high den : Nat) (closed : Bool) (e : Int) : Option Nat :=
  let (n, d) := scaledDown num den e
  let (l, _) := scaledDown low den e
  let (h, _) := scaledDown high den e
  let q := n / d
  let inside (k : Nat) : Bool := if closed then l ≤ k * d && k * d ≤ h else l < k * d && k * d < h
  match inside q, inside (q + 1) with
  | true, true => some (roundQuotient n d)
  | true, false => some q
  | false, true => some (q + 1)
  | false, false => none

/-- A natural number's digits without trailing zeros. -/
def significantDigits (n : Nat) : List Char :=
  ((Nat.toDigits 10 n).reverse.dropWhile (· == '0')).reverse

/-- The fewest digits that read back as a positive magnitude, of those the nearest to it. -/
def shortestDigits (m : Magnitude) : Digits :=
  let u := m.units
  let s := u.log2 - 52
  let step := Nat.pow 2 s
  let significand := u / step
  let below := if significand = Nat.pow 2 52 ∧ 0 < s then step else 2 * step
  let num := 4 * u
  let den := 4 * unitsPerOne
  let place := leadingPlace num den
  let hit := (List.range 17).findSome? fun k =>
    (gridHit num (num - below) (num + 2 * step) den (significand % 2 == 0)
      (place - (k + 1 : Nat))).map fun n => (n, place - (k + 1 : Nat))
  match hit with
  | some (n, e) => ⟨significantDigits n, e + digitCount n⟩
  | none => ⟨['0'], 1⟩

/-- An exponent with its sign and two digits at least. -/
def exponentText (e : Int) : List Char :=
  let ds := Nat.toDigits 10 e.natAbs
  (if e < 0 then '-' else '+') :: (if ds.length < 2 then '0' :: ds else ds)

/-- Digits with the point at its place, `.0` after an integer when asked for. -/
def positional (d : Digits) (pointAlways : Bool) : List Char :=
  if d.point ≤ 0 then '0' :: '.' :: (List.replicate (-d.point).toNat '0' ++ d.digits)
  else
    let k := d.point.toNat
    if d.digits.length ≤ k then
      d.digits ++ List.replicate (k - d.digits.length) '0' ++
        (if pointAlways then ['.', '0'] else [])
    else d.digits.take k ++ '.' :: d.digits.drop k

/-- Digits with one digit before the point and an exponent. -/
def scientific (d : Digits) : List Char :=
  let mantissa :=
    match d.digits with
    | [] => ['0']
    | [c] => [c]
    | c :: r => c :: '.' :: r
  mantissa ++ 'e' :: exponentText (d.point - 1)

/-- A sign before a text. -/
def signedText (negative : Bool) (cs : List Char) : String :=
  String.ofList (if negative then '-' :: cs else cs)

/-- The fewest digits that read back, positional between 10⁻⁴ and 10¹⁶. -/
def shortest : Binary64 → String
  | .nan => "nan"
  | .infinite s => if s then "-inf" else "inf"
  | .finite s m =>
    if m.units = 0 then signedText s ['0', '.', '0']
    else
      let d := shortestDigits m
      signedText s (if -4 < d.point ∧ d.point ≤ 16 then positional d true else scientific d)

/-- Six significant digits without trailing zeros, positional between 10⁻⁴ and 10⁶. -/
def sixDigits : Binary64 → String
  | .nan => "nan"
  | .infinite s => if s then "-inf" else "inf"
  | .finite s m =>
    if m.units = 0 then signedText s ['0']
    else
      let place := leadingPlace m.units unitsPerOne
      let (n, d) := scaledDown m.units unitsPerOne (place - 6)
      let k := roundQuotient n d
      let digits : Digits := ⟨significantDigits k, place - 6 + digitCount k⟩
      signedText s
        (if -4 < digits.point ∧ digits.point ≤ 6 then positional digits false
          else scientific digits)

/-- The integer nearest to the number, a tie to the even one, with the number's sign. -/
def wholeDigits : Binary64 → String
  | .nan => "nan"
  | .infinite s => if s then "-inf" else "inf"
  | .finite s m => signedText s (Nat.toDigits 10 (roundQuotient m.units unitsPerOne))

/-- The number nearest to the decimal of so many places that is nearest to the exact value. -/
def roundTo (places : Nat) : Binary64 → Binary64
  | .finite s m =>
    ofDecimal s (roundQuotient (m.units * Nat.pow 10 places) unitsPerOne) (-(places : Int))
  | x => x

end Binary64
end CodeSurvey
