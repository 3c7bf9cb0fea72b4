/-
# Sums of finite numbers

A running sum of finite numbers holds their exact sum as long as it stays in range, and a fault
stands for the first that leaves it (`RunningSum.foldlM_step`, `RunningSum.foldlM_step_overflow`).
Taken from the least to the greatest, the running sum first falls and then rises. So it stays in
range exactly if its lowest point, the sum of the negative numbers, and its end do
(`partialsInRange_iff`), and whether there is a sum depends on no order (`NoOverflow.perm`). Where
no number is negative only the sum itself has to be in range (`noOverflow_iff_of_nonneg`). The sum
is the exact one rounded once (`sumInOrder_of_noOverflow`).
-/

import CodeSurvey.Proofs.Number.Range
import Mathlib.Algebra.BigOperators.Group.List.Basic
import Mathlib.Algebra.Order.BigOperators.Group.List

namespace CodeSurvey
namespace Binary64

/-- The exact sum of finite numbers, in units. -/
def exactSum (ws : List Binary64) : Int := total (ws.map units)

/-- The exact sum of the negative ones among finite numbers, in units. -/
def negativeSum (ws : List Binary64) : Int := total ((ws.map units).filter (· < 0))

/-- Whether finite numbers have a sum: neither the sum of all nor that of the negative ones
alone leaves the range. -/
def NoOverflow (ws : List Binary64) : Prop := InRange (exactSum ws) ∧ InRange (negativeSum ws)

instance (ws : List Binary64) : Decidable (NoOverflow ws) := inferInstanceAs (Decidable (_ ∧ _))

theorem exactSum_cons (w : Binary64) (ws : List Binary64) :
    exactSum (w :: ws) = w.units + exactSum ws := rfl

theorem negativeSum_cons_of_neg {w : Binary64} (hw : w.units < 0) (ws : List Binary64) :
    negativeSum (w :: ws) = w.units + negativeSum ws := by
  rw [negativeSum, List.map_cons, List.filter_cons_of_pos (by simpa using hw)]
  rfl

theorem negativeSum_cons_of_nonneg {w : Binary64} (hw : 0 ≤ w.units) (ws : List Binary64) :
    negativeSum (w :: ws) = negativeSum ws := by
  rw [negativeSum, List.map_cons, List.filter_cons_of_neg (by simpa using hw)]
  rfl

theorem exactSum_perm {ws vs : List Binary64} (h : ws.Perm vs) : exactSum ws = exactSum vs :=
  (h.map units).sum_eq

/-- Whether numbers have a sum depends on no order. -/
theorem NoOverflow.perm {ws vs : List Binary64} (h : ws.Perm vs) :
    NoOverflow ws ↔ NoOverflow vs := by
  have hneg : negativeSum ws = negativeSum vs := ((h.map units).filter _).sum_eq
  rw [NoOverflow, NoOverflow, exactSum_perm h, hneg]

/-- The negative numbers have no positive sum, and none above the sum of all. -/
theorem negativeSum_le (ws : List Binary64) :
    negativeSum ws ≤ 0 ∧ negativeSum ws ≤ exactSum ws := by
  induction ws with
  | nil => exact ⟨Int.le_refl 0, Int.le_refl 0⟩
  | cons w ws ih =>
    rw [exactSum_cons]
    rcases Int.lt_or_le w.units 0 with hw | hw
    · rw [negativeSum_cons_of_neg hw]
      omega
    · rw [negativeSum_cons_of_nonneg hw]
      omega

/-- Numbers of which none is negative have no negative ones to add up. -/
theorem negativeSum_of_nonneg {ws : List Binary64} (h : ∀ w ∈ ws, 0 ≤ w.units) :
    negativeSum ws = 0 := by
  induction ws with
  | nil => rfl
  | cons w ws ih =>
    rw [negativeSum_cons_of_nonneg (h w (List.mem_cons_self ..)),
      ih fun v hv => h v (List.mem_cons_of_mem w hv)]

/-- Numbers of which none is negative have a sum exactly if their sum is in range. -/
theorem noOverflow_iff_of_nonneg {ws : List Binary64} (h : ∀ w ∈ ws, 0 ≤ w.units) :
    NoOverflow ws ↔ InRange (exactSum ws) := by
  rw [NoOverflow, negativeSum_of_nonneg h]
  exact ⟨And.left, fun hall => ⟨hall, inRange_zero⟩⟩

/-- Whether a running sum stays in range on its way from a start through all numbers. -/
def PartialsInRange (start : Int) : List Binary64 → Prop
  | [] => True
  | w :: ws => InRange (start + w.units) ∧ PartialsInRange (start + w.units) ws

/-- A running sum from the least number to the greatest stays in range exactly if its lowest
point and its end do. -/
theorem partialsInRange_iff {start : Int} (hstart : InRange start) {ws : List Binary64}
    (hsorted : ws.Pairwise fun v w => v.units ≤ w.units) :
    PartialsInRange start ws ↔ InRange (start + exactSum ws) ∧
      InRange (start + negativeSum ws) := by
  induction ws generalizing start with
  | nil =>
    have hall : exactSum [] = 0 := rfl
    have hneg : negativeSum [] = 0 := rfl
    rw [hall, hneg, Int.add_zero]
    exact ⟨fun _ => ⟨hstart, hstart⟩, fun _ => trivial⟩
  | cons w ws ih =>
    obtain ⟨hfirst, hrest⟩ := List.pairwise_cons.1 hsorted
    obtain ⟨hneg, hle⟩ := negativeSum_le ws
    rw [PartialsInRange, exactSum_cons, ← Int.add_assoc]
    rcases Int.lt_or_le w.units 0 with hw | hw
    · -- The running sum is on its way down to the lowest point.
      rw [negativeSum_cons_of_neg hw, ← Int.add_assoc]
      constructor
      · rintro ⟨hnext, hpartials⟩
        exact (ih hnext hrest).1 hpartials
      · rintro ⟨hend, hlow⟩
        have hnext : InRange (start + w.units) := hlow.between hstart (by omega) (by omega)
        exact ⟨hnext, (ih hnext hrest).2 ⟨hend, hlow⟩⟩
    · -- The running sum is on its way up to the end.
      have hzero := negativeSum_of_nonneg fun v hv => Int.le_trans hw (hfirst v hv)
      rw [negativeSum_cons_of_nonneg hw, hzero, Int.add_zero]
      constructor
      · rintro ⟨hnext, hpartials⟩
        exact ⟨((ih hnext hrest).1 hpartials).1, hstart⟩
      · rintro ⟨hend, -⟩
        have hnext : InRange (start + w.units) := hstart.between hend (by omega) (by omega)
        exact ⟨hnext, (ih hnext hrest).2 ⟨hend, by rwa [hzero, Int.add_zero]⟩⟩

namespace RunningSum

theorem step_of_inRange {r : RunningSum} {w : Binary64} (hw : w.isFinite)
    (h : InRange (r.partialUnits + w.units)) :
    r.step w = .ok { r with partialUnits := r.partialUnits + w.units } := by
  cases w with
  | nan => cases hw
  | infinite s => cases hw
  | finite s m =>
    rw [InRange] at h
    rw [step, if_pos h]

theorem step_of_not_inRange {r : RunningSum} {w : Binary64} (hw : w.isFinite)
    (h : ¬InRange (r.partialUnits + w.units)) : r.step w = .error .overflow := by
  cases w with
  | nan => cases hw
  | infinite s => cases hw
  | finite s m =>
    rw [InRange] at h
    rw [step, if_neg h]

/-- A running sum of finite numbers that stays in range holds their exact sum. -/
theorem foldlM_step {ws : List Binary64} (hws : ∀ w ∈ ws, w.isFinite) {r : RunningSum}
    (h : PartialsInRange r.partialUnits ws) :
    ws.foldlM step r = .ok { r with partialUnits := r.partialUnits + exactSum ws } := by
  induction ws generalizing r with
  | nil =>
    rw [exactSum, List.map_nil, total, List.foldr_nil, Int.add_zero]
    rfl
  | cons w ws ih =>
    rw [List.foldlM_cons, step_of_inRange (hws w (List.mem_cons_self ..)) h.1, exactSum_cons,
      ← Int.add_assoc]
    exact ih (fun v hv => hws v (List.mem_cons_of_mem w hv)) h.2

/-- A running sum of finite numbers that leaves the range is a fault. -/
theorem foldlM_step_overflow {ws : List Binary64} (hws : ∀ w ∈ ws, w.isFinite) {r : RunningSum}
    (h : ¬PartialsInRange r.partialUnits ws) : ws.foldlM step r = .error .overflow := by
  induction ws generalizing r with
  | nil => exact absurd trivial h
  | cons w ws ih =>
    rw [List.foldlM_cons]
    by_cases hnext : InRange (r.partialUnits + w.units)
    · rw [step_of_inRange (hws w (List.mem_cons_self ..)) hnext]
      exact ih (fun v hv => hws v (List.mem_cons_of_mem w hv)) fun hrest => h ⟨hnext, hrest⟩
    · rw [step_of_not_inRange (hws w (List.mem_cons_self ..)) hnext]
      rfl

end RunningSum

/-- The partial sums of numbers from the least to the greatest stay in range exactly if
the numbers have a sum. -/
theorem partialsInRange_zero_iff {ws : List Binary64}
    (hsorted : ws.Pairwise fun v w => v.units ≤ w.units) :
    PartialsInRange 0 ws ↔ NoOverflow ws := by
  rw [partialsInRange_iff inRange_zero hsorted, Int.zero_add, Int.zero_add]
  exact Iff.rfl

/-- **The sum is rounded once.** Finite numbers that have a sum, taken from the least to the
greatest, give the number nearest to their exact sum. -/
theorem sumInOrder_of_noOverflow {ws : List Binary64} (hws : ∀ w ∈ ws, w.isFinite)
    (hsorted : ws.Pairwise fun v w => v.units ≤ w.units) (h : NoOverflow ws) :
    sumInOrder ws = .ok (sum ws) := by
  have hrun := RunningSum.foldlM_step hws (r := ⟨0, false, false, false⟩)
    ((partialsInRange_zero_iff hsorted).2 h)
  rw [sumInOrder, hrun]
  show Except.ok (roundInt (0 + exactSum ws) 1) = _
  rw [Int.zero_add]
  rfl

/-- Finite numbers that have no sum, taken from the least to the greatest, leave the range. -/
theorem sumInOrder_of_overflow {ws : List Binary64} (hws : ∀ w ∈ ws, w.isFinite)
    (hsorted : ws.Pairwise fun v w => v.units ≤ w.units) (h : ¬NoOverflow ws) :
    sumInOrder ws = .error .overflow := by
  have hrun := RunningSum.foldlM_step_overflow hws (r := ⟨0, false, false, false⟩)
    fun hpartials => h ((partialsInRange_zero_iff hsorted).1 hpartials)
  rw [sumInOrder, hrun]
  rfl

/-- The sum of numbers that have one is finite. -/
theorem isFinite_sum {ws : List Binary64} (h : NoOverflow ws) : (sum ws).isFinite := by
  obtain ⟨m, hm⟩ := Option.isSome_iff_exists.1 h.1
  unfold sum roundInt round
  rw [exactSum] at hm
  rw [hm]
  rfl

/-- Finite numbers compare as their units do. -/
theorem lt_of_isFinite {v w : Binary64} (hv : v.isFinite) (hw : w.isFinite) :
    v.lt w = decide (v.units < w.units) := by
  cases v with
  | nan => cases hv
  | infinite s => cases hv
  | finite s m =>
    cases w with
    | nan => cases hw
    | infinite t => cases hw
    | finite t n => rfl

/-- Finite numbers are equal as numbers exactly if they have the same units. -/
theorem same_of_isFinite {v w : Binary64} (hv : v.isFinite) (hw : w.isFinite) :
    v.same w = decide (v.units = w.units) := by
  cases v with
  | nan => cases hv
  | infinite s => cases hv
  | finite s m =>
    cases w with
    | nan => cases hw
    | infinite t => cases hw
    | finite t n => rfl

theorem sum_perm {ws vs : List Binary64} (h : ws.Perm vs) : sum ws = sum vs :=
  congrArg (roundInt · 1) (exactSum_perm h)

end Binary64
end CodeSurvey
