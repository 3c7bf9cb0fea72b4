/-
# How far rounding moves a number

A step is a power of two whose first `2⁵³` multiples are numbers. Below the last of them an exact
result lies between two neighbouring multiples (`exists_neighbours`), and rounding does not pass
either of them; so it moves the result by one step at most. That holds for the rounding of a
quotient, for a sum and for a product (`roundInt_near`, `add_near`, `mul_near`), whatever their
grids are, and the moves of several operations add up.
-/

import CodeSurvey.Proofs.Number.Arithmetic

namespace CodeSurvey
namespace Binary64

/-- Whether a number of units is a power of two whose first `2⁵³` multiples are in range. -/
def IsStep (step : Nat) : Prop := ∃ s ≤ 2044, step = 2 ^ s

theorem IsStep.pos {step : Nat} (h : IsStep step) : 0 < step := by
  obtain ⟨s, -, rfl⟩ := h
  exact Nat.two_pow_pos s

/-- The first multiples of a step are representable. -/
theorem IsStep.representable {step q : Nat} (h : IsStep step) (hq : q ≤ 2 ^ 53) :
    Representable (q * step) := by
  obtain ⟨s, hs, rfl⟩ := h
  obtain ⟨e, he⟩ : ∃ e, e = 2044 := ⟨_, rfl⟩
  refine representable_shift hq ?_
  rw [limit_eq he, Nat.pow_eq]
  calc q * 2 ^ s ≤ 2 ^ 53 * 2 ^ s := Nat.mul_le_mul_right _ hq
    _ = 2 ^ (53 + s) := (Nat.pow_add 2 53 s).symm
    _ < 2 ^ (54 + e) := Nat.pow_lt_pow_right (by decide) (by omega)

/-- Two neighbouring multiples of a step around the quotient of `n` and `den`. -/
structure Neighbours (step : Nat) (n : Int) (den : Nat) (lo hi : Int) : Prop where
  lo_representable : Representable lo.natAbs
  hi_representable : Representable hi.natAbs
  zero_le : 0 ≤ lo
  lo_le : lo * den ≤ n
  le_hi : n ≤ hi * den
  near_lo : n - step * den ≤ lo * den
  near_hi : hi * den ≤ n + step * den

theorem exists_neighbours {step den : Nat} {n : Int} (hstep : IsStep step) (hden : 0 < den)
    (hn : 0 ≤ n) (hfits : n < 2 ^ 53 * (step * den)) : ∃ lo hi, Neighbours step n den lo hi := by
  obtain ⟨m, rfl⟩ := Int.eq_ofNat_of_zero_le hn
  have hpos : 0 < step * den := Nat.mul_pos hstep.pos hden
  have hcount : m / (step * den) < 2 ^ 53 :=
    (Nat.div_lt_iff_lt_mul hpos).2 (by exact_mod_cast hfits)
  have hsplit := Nat.div_add_mod m (step * den)
  have hrest := Nat.mod_lt m hpos
  generalize m / (step * den) = q at hcount hsplit
  generalize m % (step * den) = r at hsplit hrest
  have hlo : q * step * den = step * den * q := by ring
  have hhi : (q + 1) * step * den = step * den * q + step * den := by ring
  refine ⟨((q * step : Nat) : Int), (((q + 1) * step : Nat) : Int), ?_⟩
  exact {
    lo_representable := by
      rw [Int.natAbs_natCast]
      exact hstep.representable (by omega)
    hi_representable := by
      rw [Int.natAbs_natCast]
      exact hstep.representable (by omega)
    zero_le := Int.natCast_nonneg _
    lo_le := by
      rw [← Int.natCast_mul, hlo]
      omega
    le_hi := by
      rw [← Int.natCast_mul, hhi]
      omega
    near_lo := by
      rw [← Int.natCast_mul, ← Int.natCast_mul, hlo]
      omega
    near_hi := by
      rw [← Int.natCast_mul, ← Int.natCast_mul, hhi]
      omega }

/-- What lies between the neighbours of a quotient is at most one step away from it. -/
theorem Neighbours.near {step den : Nat} {n lo hi u : Int} (h : Neighbours step n den lo hi)
    (hlower : lo ≤ u) (hupper : u ≤ hi) :
    0 ≤ u ∧ n - step * den ≤ u * den ∧ u * den ≤ n + step * den := by
  have hden : (0 : Int) ≤ den := Int.natCast_nonneg den
  refine ⟨Int.le_trans h.zero_le hlower, ?_, ?_⟩
  · exact Int.le_trans h.near_lo (Int.mul_le_mul_of_nonneg_right hlower hden)
  · exact Int.le_trans (Int.mul_le_mul_of_nonneg_right hupper hden) h.near_hi

/-- **Rounding moves a quotient by one step at most.** -/
theorem roundInt_near {step den : Nat} {n : Int} (hstep : IsStep step) (hden : 0 < den) (hn : 0 ≤ n)
    (hfits : n < 2 ^ 53 * (step * den)) :
    (roundInt n den).isFinite ∧ 0 ≤ (roundInt n den).units ∧
      n - step * den ≤ (roundInt n den).units * den ∧
      (roundInt n den).units * den ≤ n + step * den := by
  obtain ⟨lo, hi, h⟩ := exists_neighbours hstep hden hn hfits
  obtain ⟨hfinite, hlower, hupper⟩ :=
    roundInt_between hden h.lo_representable h.hi_representable h.lo_le h.le_hi
  exact ⟨hfinite, h.near hlower hupper⟩

/-- A sum is at most one step away from the exact sum. -/
theorem add_near {step : Nat} {x y : Binary64} (hstep : IsStep step) (hx : x.isFinite)
    (hy : y.isFinite) (hn : 0 ≤ x.units + y.units) (hfits : x.units + y.units < 2 ^ 53 * step) :
    (x + y).isFinite ∧ 0 ≤ (x + y).units ∧ x.units + y.units - step ≤ (x + y).units ∧
      (x + y).units ≤ x.units + y.units + step := by
  have hone : ∀ a : Int, a * ((1 : Nat) : Int) = a := Int.mul_one
  have hfits' : x.units + y.units < 2 ^ 53 * (step * ((1 : Nat) : Int)) := by rwa [hone]
  obtain ⟨lo, hi, h⟩ := exists_neighbours hstep Nat.one_pos hn hfits'
  have hlo := h.lo_le
  have hhi := h.le_hi
  rw [hone] at hlo hhi
  obtain ⟨hfinite, hlower, hupper⟩ :=
    add_between hx hy h.lo_representable h.hi_representable hlo hhi
  have hnear := h.near hlower hupper
  rw [hone, hone] at hnear
  exact ⟨hfinite, hnear⟩

/-- A product is at most one step away from the exact product. -/
theorem mul_near {step : Nat} {x y : Binary64} (hstep : IsStep step) (hx : x.isFinite)
    (hy : y.isFinite) (hn : 0 ≤ x.units * y.units)
    (hfits : x.units * y.units < 2 ^ 53 * (step * unitsPerOne)) :
    (x * y).isFinite ∧ 0 ≤ (x * y).units ∧ x.units * y.units - step * unitsPerOne ≤ (x * y).units *
      unitsPerOne ∧ (x * y).units * unitsPerOne ≤ x.units * y.units + step * unitsPerOne := by
  obtain ⟨lo, hi, h⟩ := exists_neighbours hstep unitsPerOne_pos hn hfits
  obtain ⟨hfinite, hlower, hupper⟩ :=
    mul_between hx hy h.lo_representable h.hi_representable h.lo_le h.le_hi
  exact ⟨hfinite, h.near hlower hupper⟩

end Binary64
end CodeSurvey
