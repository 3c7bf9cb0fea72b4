/-
# Numbers that may be infinite

The defined numbers, the infinite ones included, are in order of their sides, where the
infinite ones stand apart, and on one side in order of their units (`lt_of_defined`,
`same_of_defined`). A sum of numbers of which none is negative is not negative either, whether
it is finite or not (`zero_le_of_sumInOrder`), and a single finite number is its own sum
(`sum_singleton`), as any sum is (`sum_sum`).
-/

import CodeSurvey.Proofs.Number.Arithmetic
import CodeSurvey.Proofs.Outcome

namespace CodeSurvey
namespace Binary64

/-- Where a defined number stands: below all finite ones, among them, or above them. -/
def side : Binary64 → Int
  | infinite true => -1
  | infinite false => 1
  | _ => 0

/-- Whether a number comes before another one by their sides and their units. -/
def Below (v w : Binary64) : Prop := v.side < w.side ∨ (v.side = w.side ∧ v.units < w.units)

instance (v w : Binary64) : Decidable (Below v w) := inferInstanceAs (Decidable (_ ∨ _))

theorem below_finite (s t : Bool) (m n : Magnitude) :
    Below (finite s m) (finite t n) ↔ (finite s m).units < (finite t n).units := by
  simp [Below, side]

/-- Defined numbers compare by their sides and their units. -/
theorem lt_of_defined {v w : Binary64} (hv : v ≠ .nan) (hw : w ≠ .nan) :
    v.lt w = decide (Below v w) := by
  cases v with
  | nan => exact absurd rfl hv
  | infinite s =>
    cases w with
    | nan => exact absurd rfl hw
    | infinite t => cases s <;> cases t <;> rfl
    | finite t n => cases s <;> simp [lt, Below, side]
  | finite s m =>
    cases w with
    | nan => exact absurd rfl hw
    | infinite t => cases t <;> simp [lt, Below, side]
    | finite t n => rw [lt_of_isFinite rfl rfl, decide_eq_decide, below_finite]

/-- Defined numbers are equal as numbers exactly if neither comes before the other. -/
theorem same_of_defined {v w : Binary64} (hv : v ≠ .nan) (hw : w ≠ .nan) :
    v.same w = decide (¬Below v w ∧ ¬Below w v) := by
  cases v with
  | nan => exact absurd rfl hv
  | infinite s =>
    cases w with
    | nan => exact absurd rfl hw
    | infinite t => cases s <;> cases t <;> rfl
    | finite t n => cases s <;> simp [same, Below, side]
  | finite s m =>
    cases w with
    | nan => exact absurd rfl hw
    | infinite t => cases t <;> simp [same, Below, side]
    | finite t n =>
      rw [same_of_isFinite rfl rfl, decide_eq_decide, below_finite, below_finite]
      omega

/-- A finite number is defined. -/
theorem ne_nan_of_isFinite {x : Binary64} (h : x.isFinite) : x ≠ .nan := by
  rintro rfl
  cases h

/-- What is not below zero is defined. -/
theorem ne_nan_of_zero_le {x : Binary64} (h : zero.le x) : x ≠ .nan := by
  rintro rfl
  cases h

/-- A finite number is not below zero exactly if its units are not negative. -/
theorem zero_le_iff {x : Binary64} (h : x.isFinite) : zero.le x ↔ 0 ≤ x.units := by
  have hzero : zero.isFinite := rfl
  have hunits : zero.units = 0 := rfl
  rw [le_of_isFinite hzero h, hunits, decide_eq_true_eq]

/-- A count that is not negative is rounded to a number that is not negative. -/
theorem zero_le_roundInt {n : Int} (h : 0 ≤ n) : zero.le (roundInt n 1) := by
  rw [roundInt, decide_eq_false (Int.not_lt.2 h)]
  cases hnearest : nearest n.natAbs 1 with
  | some m =>
    rw [round_eq_finite hnearest, zero_le_iff rfl]
    exact Int.natCast_nonneg m.units
  | none =>
    unfold round
    rw [hnearest]
    rfl

/-- Whether a running sum has met nothing negative or undefined. -/
structure RunningSum.Nonnegative (r : RunningSum) : Prop where
  partialUnits : 0 ≤ r.partialUnits
  sawNegative : r.sawNegative = false
  sawNan : r.sawNan = false

/-- A running sum stays so with one more number that is not negative. -/
theorem RunningSum.Nonnegative.step {r r' : RunningSum} (h : r.Nonnegative) {x : Binary64}
    (hx : zero.le x) (hstep : r.step x = .ok r') : r'.Nonnegative := by
  cases x with
  | nan => cases hx
  | infinite s =>
    cases s with
    | true => cases hx
    | false =>
      cases hstep
      exact ⟨Int.le_refl 0, h.sawNegative, h.sawNan⟩
  | finite s m =>
    have hunits := (zero_le_iff rfl).1 hx
    by_cases hrange : InRange (r.partialUnits + (finite s m).units)
    · rw [step_of_inRange rfl hrange] at hstep
      cases hstep
      exact ⟨Int.add_nonneg h.partialUnits hunits, h.sawNegative, h.sawNan⟩
    · rw [step_of_not_inRange rfl hrange] at hstep
      cases hstep

theorem RunningSum.Nonnegative.foldlM {r r' : RunningSum} (h : r.Nonnegative) {xs : List Binary64}
    (hxs : ∀ x ∈ xs, zero.le x) (hrun : xs.foldlM RunningSum.step r = .ok r') : r'.Nonnegative := by
  induction xs generalizing r with
  | nil =>
    cases hrun
    exact h
  | cons x xs ih =>
    rw [List.foldlM_cons] at hrun
    obtain ⟨r₁, hstep, hrun⟩ := Outcome.bind_eq_ok.1 hrun
    exact ih (h.step (hxs x (List.mem_cons_self ..)) hstep) (fun y hy =>
      hxs y (List.mem_cons_of_mem x hy)) hrun

/-- **A sum of numbers that are not negative is not negative,** and it is defined. -/
theorem zero_le_of_sumInOrder {xs : List Binary64} (hxs : ∀ x ∈ xs, zero.le x) {y : Binary64}
    (h : sumInOrder xs = .ok y) : zero.le y := by
  obtain ⟨r, hrun, h⟩ := Outcome.bind_eq_ok.1 h
  have hstart : RunningSum.Nonnegative ⟨0, false, false, false⟩ := ⟨Int.le_refl 0, rfl, rfl⟩
  have hr := hstart.foldlM hxs hrun
  rw [hr.sawNegative, hr.sawNan, Bool.and_false] at h
  simp only [Bool.false_eq_true, if_false] at h
  cases hinfinite : r.sawPositive with
  | true =>
    rw [hinfinite] at h
    cases h
    rfl
  | false =>
    rw [hinfinite] at h
    rw [← Except.ok.inj h]
    exact zero_le_roundInt hr.partialUnits

/-- A representable count is the one nearest to itself. -/
theorem nearest_units (m : Magnitude) : nearest m.units 1 = some m := by
  obtain ⟨k, hk, hupper⟩ :=
    exists_nearest_of_le Nat.one_pos m.representable (Nat.le_of_eq (Nat.mul_one _).symm)
  have hlower := le_units_of_nearest Nat.one_pos m.representable (Nat.le_of_eq (Nat.mul_one _)) hk
  rw [hk]
  cases k
  cases m
  rw [Option.some.injEq, Magnitude.mk.injEq]
  exact Nat.le_antisymm hupper hlower

/-- A finite number has a sum alone. -/
theorem noOverflow_singleton {w : Binary64} (hw : w.isFinite) : NoOverflow [w] := by
  have hrange : InRange w.units := by
    obtain ⟨s, m, rfl⟩ := exists_finite hw
    rw [InRange, units_finite, natAbs_signed, nearest_units]
    rfl
  have hall : exactSum [w] = w.units := Int.add_zero _
  rw [NoOverflow, hall]
  refine ⟨hrange, ?_⟩
  rcases Int.lt_or_le w.units 0 with hneg | hnonneg
  · have hnegative : negativeSum [w] = w.units :=
      (negativeSum_cons_of_neg hneg []).trans (Int.add_zero _)
    rw [hnegative]
    exact hrange
  · have hnone : negativeSum [] = 0 := rfl
    rw [negativeSum_cons_of_nonneg hnonneg, hnone]
    exact inRange_zero

/-- A finite number that is not negative, nor negative zero, is its own sum. -/
theorem sum_singleton (m : Magnitude) : sum [finite false m] = finite false m := by
  have hunits : total ([finite false m].map units) = (m.units : Int) := Int.add_zero _
  rw [sum, hunits, roundInt, Int.natAbs_natCast, round_eq_finite (nearest_units m),
    decide_eq_false (Int.not_lt.2 (Int.natCast_nonneg _))]

/-- **A sum is its own sum:** rounding once more changes nothing, and no sum is a negative zero. -/
theorem sum_sum {ws : List Binary64} (h : NoOverflow ws) : sum [sum ws] = sum ws := by
  obtain ⟨m, hm⟩ := Option.isSome_iff_exists.1 h.1
  have hsum : sum ws = finite (decide (exactSum ws < 0)) m := by
    rw [sum, ← exactSum, roundInt, round_eq_finite hm]
  rcases Int.lt_or_le (exactSum ws) 0 with hneg | hnonneg
  · have hpos : 1 * 1 ≤ (exactSum ws).natAbs := by
      rw [Nat.one_mul]
      exact Int.natAbs_pos.2 (Int.ne_of_lt hneg)
    have hone : 1 ≤ m.units := le_units_of_nearest Nat.one_pos representable_one hpos hm
    have hunits : total ([finite true m].map units) = -(m.units : Int) := Int.add_zero _
    have hbelow : -(m.units : Int) < 0 := by omega
    rw [hsum, decide_eq_true hneg, sum, hunits, roundInt, Int.natAbs_neg, Int.natAbs_natCast,
      round_eq_finite (nearest_units m), decide_eq_true hbelow]
  · rw [hsum, decide_eq_false (Int.not_lt.2 hnonneg), sum_singleton]

/-- The rounding of a count that is not negative has no negative sign. -/
theorem roundInt_eq_finite {n : Int} (h : 0 ≤ n) {den : Nat} (hfinite : (roundInt n den).isFinite) :
    ∃ m, roundInt n den = .finite false m := by
  rw [roundInt, decide_eq_false (Int.not_lt.2 h)] at hfinite ⊢
  cases hnearest : nearest n.natAbs den with
  | some m => exact ⟨m, round_eq_finite hnearest⟩
  | none =>
    unfold round at hfinite
    rw [hnearest] at hfinite
    cases hfinite

/-- A share is a finite number without a negative sign. -/
theorem ofRatio_eq_finite {n d : Nat} (hd : 0 < d) (hn : n ≤ d) :
    ∃ m, ofRatio n d = .finite false m := by
  have hfinite := (ofRatio_between hd hn).1
  unfold ofRatio at hfinite ⊢
  exact roundInt_eq_finite (Int.mul_nonneg (Int.natCast_nonneg _) (Int.natCast_nonneg _)) hfinite

end Binary64
end CodeSurvey
