/-
# The range of sums

A count of units is in range if there is a finite number nearest to it. The counts in range are
those below `2²⁰⁹⁸ − 2²⁰⁴⁴`, halfway between the largest finite number and the limit
(`isSome_nearest_iff`); the count halfway goes to the even neighbour, which is the limit. So
whatever is nearer to zero than a count in range is in range itself, and so is whatever lies between
two counts in range (`InRange.between`).
-/

import CodeSurvey.Number.Binary64
import Mathlib.Algebra.Group.Nat.Defs

namespace CodeSurvey
namespace Binary64

/-- Among the greatest counts, on the grid of whole steps, those below the last half step
stay below the limit. -/
theorem roundQuotient_lt_iff {n p : Nat} (hp : 0 < p) (hn : n < 2 ^ 54 * p) :
    roundQuotient n (2 * p) < 2 ^ 53 ↔ n < (2 ^ 54 - 1) * p := by
  have hq : n / (2 * p) < 2 ^ 53 := by
    rw [Nat.div_lt_iff_lt_mul (by omega)]
    omega
  have hsplit := Nat.div_add_mod n (2 * p)
  have hr : n % (2 * p) < 2 * p := Nat.mod_lt _ (by omega)
  unfold roundQuotient
  dsimp only
  generalize n / (2 * p) = q at *
  generalize n % (2 * p) = r at *
  rcases Nat.lt_or_eq_of_le (Nat.le_sub_one_of_lt hq) with hlow | hlast
  · -- Below the last step there is room for rounding up.
    have hstep : 2 * p * (q + 1) ≤ 2 * p * (2 ^ 53 - 1) := Nat.mul_le_mul_left _ hlow
    rw [Nat.mul_add_one] at hstep
    constructor
    · omega
    · split <;> omega
  · -- The last step is odd, so what lies halfway from it to the end is rounded up.
    have hodd : (q % 2 == 1) = true := by rw [hlast]; rfl
    have hup : (decide (2 * p < 2 * r) || (2 * p == 2 * r && q % 2 == 1)) = decide (p ≤ r) := by
      rw [hodd, Bool.and_true, Bool.eq_iff_iff, Bool.or_eq_true, decide_eq_true_eq,
        decide_eq_true_eq, beq_iff_eq]
      omega
    rw [hup]
    subst hlast
    rcases Nat.lt_or_ge r p with hlow | hhigh
    · rw [if_neg (by simpa using hlow)]
      omega
    · rw [if_pos (decide_eq_true hhigh)]
      omega

/-- A quotient does not become smaller than its whole part. -/
theorem le_roundQuotient (num den : Nat) : num / den ≤ roundQuotient num den := by
  unfold roundQuotient
  dsimp only
  split <;> omega

/-- Rounded to 53 bits, a count stays below a limit exactly if it is below the
last half step before it. -/
theorem rounded_lt_iff (n e : Nat) :
    roundQuotient n (2 ^ (n.log2 - 52)) * 2 ^ (n.log2 - 52) < 2 ^ (54 + e) ↔
      n < (2 ^ 54 - 1) * 2 ^ e := by
  have hpos : 0 < 2 ^ e := Nat.two_pow_pos e
  have hlimit : 2 ^ (54 + e) = 2 ^ 54 * 2 ^ e := Nat.pow_add 2 54 e
  rcases Nat.lt_or_ge n (2 ^ (53 + e)) with hlow | hhigh
  · -- Here the grid is fine enough for the greatest multiple on it to stay below the limit.
    have hlog : n.log2 - 52 ≤ e := by
      by_cases h0 : n = 0
      · subst h0
        exact Nat.zero_le _
      · have := (Nat.log2_lt h0).2 hlow
        omega
    have hround : roundQuotient n (2 ^ (n.log2 - 52)) ≤ 2 ^ 53 := by
      have h := roundQuotient_le n 1
      rwa [gridExponent, Nat.div_one, Nat.one_mul] at h
    have hprod := Nat.mul_le_mul hround (Nat.pow_le_pow_right Nat.two_pos hlog)
    rw [Nat.pow_add] at hlow
    constructor <;> intro <;> omega
  · have h0 : n ≠ 0 := by
      have := Nat.two_pow_pos (53 + e)
      omega
    rcases Nat.lt_or_ge n (2 ^ (54 + e)) with hmid | htop
    · have hlog : n.log2 - 52 = 1 + e := by
        have h : n.log2 = 53 + e := (Nat.log2_eq_iff h0).2 ⟨hhigh, by rwa [Nat.add_right_comm]⟩
        omega
      rw [hlog, Nat.pow_add, Nat.pow_one, ← roundQuotient_lt_iff hpos (hlimit ▸ hmid)]
      constructor <;> intro h
      · refine Nat.lt_of_mul_lt_mul_right (a := 2 * 2 ^ e) ?_
        omega
      · have := Nat.mul_le_mul_right (2 * 2 ^ e) (Nat.le_sub_one_of_lt h)
        omega
    · -- Here the multiples on the grid that have 53 bits are beyond the limit.
      have hlog := (Nat.le_log2 h0).2 htop
      have hsplit : 2 ^ n.log2 = 2 ^ 52 * 2 ^ (n.log2 - 52) := by
        rw [← Nat.pow_add]
        congr 1
        omega
      have hquotient : 2 ^ 52 ≤ n / 2 ^ (n.log2 - 52) := by
        rw [Nat.le_div_iff_mul_le (Nat.two_pow_pos _), ← hsplit]
        exact Nat.log2_self_le h0
      have hround := Nat.mul_le_mul_right (2 ^ (n.log2 - 52))
        (Nat.le_trans hquotient (le_roundQuotient n _))
      have hbeyond : 2 ^ (54 + e) ≤ 2 ^ n.log2 := Nat.pow_le_pow_right Nat.two_pos hlog
      constructor <;> intro <;> omega

/-- Half the distance between the largest finite numbers. -/
def halfStep : Nat := 2 ^ 2044

-- The exponent is kept apart from its value, as no step should try to write out a
-- power as great as these.
theorem halfStep_eq {e : Nat} (h : e = 2044) : halfStep = 2 ^ e := by
  subst h
  unfold halfStep
  exact Eq.refl _

theorem limit_eq {e : Nat} (h : e = 2044) : limit = 2 ^ (54 + e) := by
  have hlimit : 2098 = 54 + e := by omega
  unfold limit
  rw [hlimit]
  exact Nat.pow_eq

theorem halfStep_pos : 0 < halfStep := by
  obtain ⟨e, he⟩ : ∃ e, e = 2044 := ⟨_, rfl⟩
  rw [halfStep_eq he]
  exact Nat.two_pow_pos e

/-- **The range of roundings.** A count of units has a nearest finite number exactly if it is below
the last half step before the limit. -/
theorem isSome_nearest_iff (n : Nat) : (nearest n 1).isSome ↔ n < (2 ^ 54 - 1) * halfStep := by
  obtain ⟨e, he⟩ : ∃ e, e = 2044 := ⟨_, rfl⟩
  have hnearest : (nearest n 1).isSome ↔
      roundQuotient n (2 ^ (n.log2 - 52)) * 2 ^ (n.log2 - 52) < limit := by
    unfold nearest gridExponent
    simp only [Nat.div_one, Nat.one_mul, Nat.pow_eq]
    split <;> simp [*]
  rw [hnearest, limit_eq he, rounded_lt_iff, halfStep_eq he]

/-- Whether there is a finite number nearest to a count of units with its sign. -/
def InRange (n : Int) : Prop := (nearest n.natAbs 1).isSome

instance (n : Int) : Decidable (InRange n) := inferInstanceAs (Decidable (_ = true))

theorem inRange_iff {n : Int} : InRange n ↔ n.natAbs < (2 ^ 54 - 1) * halfStep :=
  isSome_nearest_iff n.natAbs

theorem inRange_zero : InRange 0 := inRange_iff.2 (Nat.mul_pos (by decide) halfStep_pos)

/-- What lies between two counts in range is in range. -/
theorem InRange.between {a b n : Int} (ha : InRange a) (hb : InRange b) (han : a ≤ n)
    (hnb : n ≤ b) : InRange n := by
  rw [inRange_iff] at *
  omega

end Binary64
end CodeSurvey
