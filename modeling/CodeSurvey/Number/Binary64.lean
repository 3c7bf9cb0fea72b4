/-
# Binary64 numbers, exactly

Every finite binary64 number is a whole multiple of the smallest positive one, 2⁻¹⁰⁷⁴. So a finite
number is a sign and a count of such units, and the counts that occur are those below 2²⁰⁹⁸ with at
most 53 significant bits. A sum, product or quotient is formed exactly on integers and then rounded
once, to the nearest representable count, a tie going to the even one:

| quantity | units |
| --- | --- |
| one | 2¹⁰⁷⁴ |
| `a + b` | `a + b` |
| `a · b` | `a b / 2¹⁰⁷⁴` |
| `a / b` | `a 2¹⁰⁷⁴ / b` |
| `n / d` for integers | `n 2¹⁰⁷⁴ / d` |

A sum of many numbers (`sum`) is rounded once at the end, so its value depends on no order. A zero
keeps its sign, which is the only thing the unit count cannot tell.
-/

import CodeSurvey.Total

namespace CodeSurvey

namespace Binary64

/-- The count of units at which the range ends. -/
def limit : Nat := Nat.pow 2 2098

/-- The counts of units that binary64 has: at most 53 significant bits, below the limit. -/
def Representable (n : Nat) : Prop := n < limit ∧ Nat.pow 2 (n.log2 - 52) ∣ n

instance (n : Nat) : Decidable (Representable n) := inferInstanceAs (Decidable (_ ∧ _))

/-- A representable count of units of 2⁻¹⁰⁷⁴. -/
structure Magnitude where
  units : Nat
  representable : Representable units
  deriving DecidableEq

end Binary64

/-- A binary64 number. -/
inductive Binary64
  | nan
  | infinite (negative : Bool)
  | finite (negative : Bool) (magnitude : Binary64.Magnitude)
  deriving DecidableEq

namespace Binary64

/-- The number of units in one. -/
def unitsPerOne : Nat := Nat.pow 2 1074

/-- A count with at most 53 significant bits is representable, however far it is shifted, as long as
it stays below the limit. -/
theorem representable_shift {m s : Nat} (hm : m ≤ Nat.pow 2 53) (hb : m * Nat.pow 2 s < limit) :
    Representable (m * Nat.pow 2 s) := by
  refine ⟨hb, ?_⟩
  rw [Nat.pow_eq, Nat.pow_eq]
  rw [Nat.pow_eq] at hm
  rcases Nat.lt_or_eq_of_le hm with h | h
  · refine Nat.dvd_trans (Nat.pow_dvd_pow 2 ?_) (Nat.dvd_mul_left _ _)
    by_cases h0 : m * 2 ^ s = 0
    · simp [h0]
    · have : m * 2 ^ s < 2 ^ (53 + s) := by
        rw [Nat.pow_add]; exact Nat.mul_lt_mul_of_pos_right h (Nat.two_pow_pos s)
      have := (Nat.log2_lt h0).2 this
      omega
  · subst h
    rw [← Nat.pow_add, Nat.log2_two_pow]
    exact Nat.pow_dvd_pow 2 (by omega)

/-- The quotient `num / den` rounded to a whole number, a tie to the even neighbour. -/
def roundQuotient (num den : Nat) : Nat :=
  let q := num / den
  let r := num % den
  if den < 2 * r || (den == 2 * r && q % 2 == 1) then q + 1 else q

/-- The exponent of the binary64 grid on which `num / den` units is rounded. -/
def gridExponent (num den : Nat) : Nat := (num / den).log2 - 52

theorem roundQuotient_le (num den : Nat) :
    roundQuotient num (den * Nat.pow 2 (gridExponent num den)) ≤ Nat.pow 2 53 := by
  rw [Nat.pow_eq, Nat.pow_eq]
  have hq : num / (den * 2 ^ gridExponent num den) < 2 ^ 53 := by
    rw [← Nat.div_div_eq_div_mul]
    apply Nat.div_lt_of_lt_mul
    rw [← Nat.pow_add]
    by_cases h0 : num / den = 0
    · rw [h0]; exact Nat.two_pow_pos _
    · apply (Nat.log2_lt h0).1
      unfold gridExponent
      omega
  unfold roundQuotient
  simp only
  split <;> omega

/-- The magnitude nearest to `num / den` units, `none` when that is too large. -/
def nearest (num den : Nat) : Option Magnitude :=
  let s := gridExponent num den
  let m := roundQuotient num (den * Nat.pow 2 s)
  if h : m * Nat.pow 2 s < limit then
    some ⟨m * Nat.pow 2 s, representable_shift (roundQuotient_le num den) h⟩
  else none

/-- The number nearest to `num / den` units with the given sign; too large a one is infinite. -/
def round (negative : Bool) (num den : Nat) : Binary64 :=
  match nearest num den with
  | some m => .finite negative m
  | none => .infinite negative

/-- The number nearest to `n / den` units; zero is positive. -/
def roundInt (n : Int) (den : Nat) : Binary64 := round (n < 0) n.natAbs den

theorem limit_pos : 0 < limit := by decide +kernel

/-- Zero with the given sign. -/
def signedZero (negative : Bool) : Binary64 := .finite negative ⟨0, limit_pos, Nat.dvd_zero _⟩

/-- Positive zero. -/
def zero : Binary64 := signedZero false

/-- The units of a finite number with their sign. -/
def units : Binary64 → Int
  | .finite true m => -(m.units : Int)
  | .finite false m => m.units
  | _ => 0

/-- Whether the number is neither infinite nor undefined. -/
def isFinite : Binary64 → Bool
  | .finite .. => true
  | _ => false

/-- Whether the sign is negative, for a zero too. -/
def isNegative : Binary64 → Bool
  | .finite s _ => s
  | .infinite s => s
  | .nan => false

/-- The number nearest to an integer; `none` when it would be infinite. -/
def ofInt? (n : Int) : Option Binary64 :=
  match roundInt (n * unitsPerOne) 1 with
  | .infinite _ => none
  | x => some x

/-- The number nearest to an integer; one beyond the range is infinite. -/
def ofInt (n : Int) : Binary64 := roundInt (n * unitsPerOne) 1

/-- The number nearest to the quotient of two integers, the divisor positive. -/
def ofRatio (num : Int) (den : Nat) : Binary64 := roundInt (num * unitsPerOne) den

/-- The opposite number. -/
def neg : Binary64 → Binary64
  | .nan => .nan
  | .infinite s => .infinite !s
  | .finite s m => .finite (!s) m

/-- The sum; opposite infinities have none. -/
def add : Binary64 → Binary64 → Binary64
  | .nan, _ => .nan
  | _, .nan => .nan
  | .infinite s, .infinite t => if s == t then .infinite s else .nan
  | .infinite s, .finite .. => .infinite s
  | .finite .., .infinite t => .infinite t
  | .finite s a, .finite t b =>
    let total := units (.finite s a) + units (.finite t b)
    if total = 0 then signedZero (s && t) else roundInt total 1

/-- The difference. -/
def sub (x y : Binary64) : Binary64 := add x (neg y)

/-- The product; infinity times zero has none. -/
def mul : Binary64 → Binary64 → Binary64
  | .nan, _ => .nan
  | _, .nan => .nan
  | .infinite s, .infinite t => .infinite (s != t)
  | .infinite s, .finite t b => if b.units = 0 then .nan else .infinite (s != t)
  | .finite s a, .infinite t => if a.units = 0 then .nan else .infinite (s != t)
  | .finite s a, .finite t b => round (s != t) (a.units * b.units) unitsPerOne

/-- The quotient; zero divided by zero and infinity by infinity have none. -/
def div : Binary64 → Binary64 → Binary64
  | .nan, _ => .nan
  | _, .nan => .nan
  | .infinite _, .infinite _ => .nan
  | .infinite s, .finite t _ => .infinite (s != t)
  | .finite s _, .infinite t => signedZero (s != t)
  | .finite s a, .finite t b =>
    if b.units = 0 then if a.units = 0 then .nan else .infinite (s != t)
    else round (s != t) (a.units * unitsPerOne) b.units

instance : Add Binary64 := ⟨add⟩
instance : Sub Binary64 := ⟨sub⟩
instance : Mul Binary64 := ⟨mul⟩
instance : Div Binary64 := ⟨div⟩
instance : Neg Binary64 := ⟨neg⟩

/-- The order of numbers, in which nothing compares with an undefined one. -/
def lt : Binary64 → Binary64 → Bool
  | .nan, _ => false
  | _, .nan => false
  | .infinite s, .infinite t => s && !t
  | .infinite s, .finite .. => s
  | .finite .., .infinite t => !t
  | .finite s a, .finite t b => units (.finite s a) < units (.finite t b)

/-- Numerical equality, in which both zeros are equal and an undefined number equals nothing. -/
def same : Binary64 → Binary64 → Bool
  | .infinite s, .infinite t => s == t
  | .finite s a, .finite t b => units (.finite s a) = units (.finite t b)
  | _, _ => false

/-- Less or equal in the order of numbers. -/
def le (x y : Binary64) : Bool := lt x y || same x y

/-- The larger of two numbers; the first unless the second exceeds it. -/
def max (x y : Binary64) : Binary64 := if lt x y then y else x

/-- The smaller of two numbers; the first unless the second is below it. -/
def min (x y : Binary64) : Binary64 := if lt y x then y else x

/-- The number nearest to the exact sum of finite numbers, independent of their order. -/
def sum (xs : List Binary64) : Binary64 := roundInt (total (xs.map units)) 1

/-- Why a list of numbers has no sum: a partial sum is beyond the range, or
both infinities occur. -/
inductive SumFault
  | overflow
  | oppositeInfinities
  deriving DecidableEq, Repr

/-- The wording of a fault of a sum. -/
def SumFault.message : SumFault → String
  | .overflow => "intermediate overflow in fsum"
  | .oppositeInfinities => "-inf + inf in fsum"

/-- What a running sum has met: the exact finite part since the last special number, which
infinities, and whether an undefined number. -/
structure RunningSum where
  partialUnits : Int
  sawPositive : Bool
  sawNegative : Bool
  sawNan : Bool

/-- One more number; a finite part that leaves the range is a fault. -/
def RunningSum.step (r : RunningSum) : Binary64 → Except SumFault RunningSum
  | .nan => .ok { r with partialUnits := 0, sawNan := true }
  | .infinite true => .ok { r with partialUnits := 0, sawNegative := true }
  | .infinite false => .ok { r with partialUnits := 0, sawPositive := true }
  | .finite s m =>
    let total := r.partialUnits + units (.finite s m)
    if (nearest total.natAbs 1).isSome then .ok { r with partialUnits := total }
    else .error .overflow

/-- The sum of any numbers taken in the given order: the nearest number to the exact sum when all
are finite, otherwise the infinite or undefined number among them. -/
def sumInOrder (xs : List Binary64) : Except SumFault Binary64 := do
  let r ← xs.foldlM RunningSum.step ⟨0, false, false, false⟩
  if r.sawPositive && r.sawNegative then .error .oppositeInfinities
  else if r.sawNan then .ok .nan
  else if r.sawPositive then .ok (.infinite false)
  else if r.sawNegative then .ok (.infinite true)
  else .ok (roundInt r.partialUnits 1)

/-- A finite number rounded to an integer, a tie to the even neighbour. -/
def toInt? : Binary64 → Option Int
  | .finite s m =>
    let n := roundQuotient m.units unitsPerOne
    some (if s then -(n : Int) else n)
  | _ => none

end Binary64
end CodeSurvey
