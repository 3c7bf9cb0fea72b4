/-
# Arithmetic between representable numbers

Every operation is exact before it rounds once, so its result stays between two representable
numbers if the exact result does (`round_between`). That holds for the sum, the product and
the quotient of finite numbers (`add_between`, `mul_between`, `div_between`), and a finite
number between two integers is rounded to an integer between them (`roundToInt_between`). The
bounds are all that is needed of a sum of few terms: where the exact result is representable
itself, the two bounds meet.
-/

import CodeSurvey.Number
import CodeSurvey.Proofs.Number.Order

namespace CodeSurvey
namespace Binary64

/-- A count of units with a sign. -/
def signed (negative : Bool) (n : Nat) : Int := if negative then -n else n

theorem units_finite (s : Bool) (m : Magnitude) :
    (finite s m).units = signed s m.units := by cases s <;> rfl

theorem signed_mul (s t : Bool) (m n : Nat) :
    signed s m * signed t n = signed (s != t) (m * n) := by
  cases s <;> cases t <;> simp [signed]

theorem signed_zero (s : Bool) : signed s 0 = 0 := by cases s <;> rfl

theorem natAbs_signed (s : Bool) (n : Nat) : (signed s n).natAbs = n := by cases s <;> simp [signed]

/-- **Rounding stays between representable numbers.** -/
theorem round_between {negative : Bool} {num den : Nat} {lo hi : Int} (hden : 0 < den)
    (hlo : Representable lo.natAbs) (hhi : Representable hi.natAbs)
    (hlower : lo * den ≤ signed negative num) (hupper : signed negative num ≤ hi * den) :
    (round negative num den).isFinite ∧ lo ≤ (round negative num den).units ∧
      (round negative num den).units ≤ hi := by
  rcases Nat.eq_zero_or_pos num with hzero | hpos
  · -- Zero keeps its sign, which its units do not have.
    subst hzero
    have hden' : (0 : Int) < den := Int.natCast_pos.2 hden
    rw [signed_zero] at hlower hupper
    have hlo0 : lo ≤ 0 := by
      by_contra h
      have := Int.mul_pos (Int.not_le.1 h) hden'
      omega
    have hhi0 : 0 ≤ hi := by
      by_contra h
      have := Int.mul_neg_of_neg_of_pos (Int.not_le.1 h) hden'
      omega
    obtain ⟨m, hm, hle⟩ := exists_nearest_of_le hden representable_zero (Nat.zero_le _)
    have hunits : m.units = 0 := Nat.le_zero.1 hle
    rw [round_eq_finite hm, units_finite, hunits, signed_zero]
    exact ⟨rfl, hlo0, hhi0⟩
  · have hsign : decide (signed negative num < 0) = negative := by
      cases negative with
      | false => simp [signed]
      | true =>
        simp [signed]
        omega
    have hround : roundInt (signed negative num) den = round negative num den := by
      rw [roundInt, natAbs_signed, hsign]
    rw [← hround]
    exact roundInt_between hden hlo hhi hlower hupper

theorem exists_finite {x : Binary64} (h : x.isFinite) : ∃ s m, x = finite s m := by
  cases x with
  | nan => cases h
  | infinite s => cases h
  | finite s m => exact ⟨s, m, rfl⟩

/-- A sum stays between representable numbers. -/
theorem add_between {x y : Binary64} (hx : x.isFinite) (hy : y.isFinite) {lo hi : Int}
    (hlo : Representable lo.natAbs) (hhi : Representable hi.natAbs)
    (hlower : lo ≤ x.units + y.units) (hupper : x.units + y.units ≤ hi) :
    (x + y).isFinite ∧ lo ≤ (x + y).units ∧ (x + y).units ≤ hi := by
  obtain ⟨s, m, rfl⟩ := exists_finite hx
  obtain ⟨t, n, rfl⟩ := exists_finite hy
  have hadd : finite s m + finite t n =
      if (finite s m).units + (finite t n).units = 0 then signedZero (s && t)
      else roundInt ((finite s m).units + (finite t n).units) 1 := rfl
  rw [hadd]
  split_ifs with hzero
  · rw [hzero] at hlower hupper
    have hunits : (signedZero (s && t)).units = 0 := by rw [signedZero, units_finite, signed_zero]
    rw [hunits]
    exact ⟨rfl, hlower, hupper⟩
  · have hloOne : lo * ((1 : Nat) : Int) = lo := Int.mul_one lo
    have hhiOne : hi * ((1 : Nat) : Int) = hi := Int.mul_one hi
    rw [← hloOne] at hlower
    rw [← hhiOne] at hupper
    exact roundInt_between Nat.one_pos hlo hhi hlower hupper

/-- A product stays between representable numbers. -/
theorem mul_between {x y : Binary64} (hx : x.isFinite) (hy : y.isFinite) {lo hi : Int}
    (hlo : Representable lo.natAbs) (hhi : Representable hi.natAbs)
    (hlower : lo * unitsPerOne ≤ x.units * y.units)
    (hupper : x.units * y.units ≤ hi * unitsPerOne) :
    (x * y).isFinite ∧ lo ≤ (x * y).units ∧ (x * y).units ≤ hi := by
  obtain ⟨s, m, rfl⟩ := exists_finite hx
  obtain ⟨t, n, rfl⟩ := exists_finite hy
  have hmul : finite s m * finite t n = round (s != t) (m.units * n.units) unitsPerOne := by
    show mul (finite s m) (finite t n) = _
    rw [mul]
  rw [units_finite, units_finite, signed_mul] at hlower hupper
  rw [hmul]
  exact round_between unitsPerOne_pos hlo hhi hlower hupper

/-- A quotient by a positive number stays between representable numbers. -/
theorem div_between {x y : Binary64} (hx : x.isFinite) (hy : y.isFinite) (hpos : 0 < y.units)
    {lo hi : Int} (hlo : Representable lo.natAbs) (hhi : Representable hi.natAbs)
    (hlower : lo * y.units ≤ x.units * unitsPerOne)
    (hupper : x.units * unitsPerOne ≤ hi * y.units) :
    (x / y).isFinite ∧ lo ≤ (x / y).units ∧ (x / y).units ≤ hi := by
  obtain ⟨s, m, rfl⟩ := exists_finite hx
  obtain ⟨t, n, rfl⟩ := exists_finite hy
  have ht : t = false := by
    cases t with
    | false => rfl
    | true =>
      rw [units_finite, signed, if_pos rfl] at hpos
      omega
  subst ht
  have hy : (finite false n).units = n.units := rfl
  rw [hy] at hpos hlower hupper
  have hn : 0 < n.units := Int.natCast_pos.1 hpos
  have hdiv : finite s m / finite false n = round (s != false) (m.units * unitsPerOne) n.units := by
    show (if n.units = 0 then _ else _) = _
    rw [if_neg (Nat.pos_iff_ne_zero.1 hn)]
  have hsigned : (finite s m).units * unitsPerOne =
      signed (s != false) (m.units * unitsPerOne) := by
    have hone : signed false unitsPerOne = unitsPerOne := rfl
    rw [units_finite, ← signed_mul, hone]
  rw [hsigned] at hlower hupper
  rw [hdiv]
  exact round_between hn hlo hhi hlower hupper

theorem roundQuotient_between {num den : Nat} (hden : 0 < den) {lo hi : Int}
    (hlower : lo * den ≤ num) (hupper : num ≤ hi * den) :
    lo ≤ roundQuotient num den ∧ roundQuotient num den ≤ hi := by
  have hhi : 0 ≤ hi := by
    by_contra h
    have := Int.mul_neg_of_neg_of_pos (Int.not_le.1 h) (Int.natCast_pos.2 hden)
    omega
  obtain ⟨k, rfl⟩ := Int.eq_ofNat_of_zero_le hhi
  constructor
  · rcases Int.lt_or_le 0 lo with hpos | hnonpos
    · obtain ⟨l, rfl⟩ := Int.eq_ofNat_of_zero_le (Int.le_of_lt hpos)
      exact_mod_cast le_roundQuotient_of_le hden (by exact_mod_cast hlower)
    · omega
  · exact_mod_cast roundQuotient_le_of_le hden (by exact_mod_cast hupper)

/-- A finite number between two integers is rounded to an integer between them. -/
theorem roundToInt_between {x : Binary64} (hx : x.isFinite) {lo hi : Int}
    (hlower : lo * unitsPerOne ≤ x.units) (hupper : x.units ≤ hi * unitsPerOne) :
    ∃ n, x.roundToInt = .ok n ∧ lo ≤ n ∧ n ≤ hi := by
  obtain ⟨s, m, rfl⟩ := exists_finite hx
  have hround : (finite s m).roundToInt = .ok (signed s (roundQuotient m.units unitsPerOne)) := rfl
  refine ⟨_, hround, ?_⟩
  rw [units_finite] at hlower hupper
  cases s with
  | false => exact roundQuotient_between unitsPerOne_pos hlower hupper
  | true =>
    have hneg : ∀ n : Nat, signed true n = -n := fun _ => rfl
    rw [hneg] at hlower hupper ⊢
    have hlower' : -hi * unitsPerOne ≤ m.units := by
      rw [Int.neg_mul]
      omega
    have hupper' : (m.units : Int) ≤ -lo * unitsPerOne := by
      rw [Int.neg_mul]
      omega
    obtain ⟨hhi, hlo⟩ := roundQuotient_between unitsPerOne_pos hlower' hupper'
    omega

end Binary64

open Binary64 (unitsPerOne unitsPerOne_pos)

theorem isFinite_hundred : hundred.isFinite := (Binary64.ofInt_exact (k := 100) (by decide)).1

theorem units_hundred : hundred.units = 100 * unitsPerOne :=
  (Binary64.ofInt_exact (k := 100) (by decide)).2

theorem units_hundred_pos : 0 < hundred.units := by
  rw [units_hundred]
  exact Int.mul_pos (by decide) (Int.natCast_pos.2 unitsPerOne_pos)

/-- A quotient is given unless it is too large. -/
theorem ratio_of_isFinite {num : Int} {den : Nat} (h : (Binary64.ofRatio num den).isFinite) :
    ratio num den = .ok (Binary64.ofRatio num den) := by
  unfold ratio
  generalize Binary64.ofRatio num den = x at h
  cases x with
  | nan => cases h
  | infinite s => cases h
  | finite s m => rfl

theorem isFinite_zero : Binary64.zero.isFinite := rfl

theorem units_zero : Binary64.zero.units = 0 := rfl

end CodeSurvey
