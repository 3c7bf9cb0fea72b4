/-
# What stages add up to

How much of a stage is done is a percentage, whatever is reported (`clampPercent_isPercent`). As
long as the absolute weights of the stages do not add up to more than `2⁵³`, their shares and all
sums of them are numbers, and the aggregate lies between the sum of the negative weights and that of
the positive ones (`aggregate_of_percent`). Stages at their start add up to nothing
(`aggregate_of_start`), and stages that are done to the sum of their weights (`aggregate_of_done`):
there each share is exact, and rounding cannot pass what is exact.
-/

import CodeSurvey.Progress
import CodeSurvey.Proofs.Number.Arithmetic

namespace CodeSurvey

open Binary64 (unitsPerOne unitsPerOne_pos)

/-- Whether a number lies between zero and one hundred. -/
def IsPercent (x : Binary64) : Prop := Binary64.zero.le x ∧ x.le hundred

theorem isPercent_iff {x : Binary64} :
    IsPercent x ↔ x.isFinite ∧ 0 ≤ x.units ∧ x.units ≤ hundred.units := by
  constructor
  · rintro ⟨hlower, hupper⟩
    have hx := Binary64.isFinite_of_between isFinite_zero isFinite_hundred hlower hupper
    rw [Binary64.le_of_isFinite isFinite_zero hx, units_zero, decide_eq_true_eq] at hlower
    rw [Binary64.le_of_isFinite hx isFinite_hundred, decide_eq_true_eq] at hupper
    exact ⟨hx, hlower, hupper⟩
  · rintro ⟨hx, hlower, hupper⟩
    rw [IsPercent, Binary64.le_of_isFinite isFinite_zero hx,
      Binary64.le_of_isFinite hx isFinite_hundred, units_zero]
    exact ⟨decide_eq_true hlower, decide_eq_true hupper⟩

theorem isPercent_zero : IsPercent Binary64.zero := by
  rw [isPercent_iff, units_zero]
  exact ⟨isFinite_zero, Int.le_refl 0, Int.le_of_lt units_hundred_pos⟩

theorem isPercent_hundred : IsPercent hundred :=
  isPercent_iff.2 ⟨isFinite_hundred, Int.le_of_lt units_hundred_pos, Int.le_refl _⟩

/-- What is reported is kept between zero and one hundred, even if it is infinite or undefined. -/
theorem clampPercent_isPercent (x : Binary64) : IsPercent x.clampPercent := by
  unfold Binary64.clampPercent Binary64.max Binary64.min
  split_ifs with hupper hlower
  · exact ⟨Binary64.le_of_lt hlower, Binary64.le_of_lt hupper⟩
  · exact isPercent_zero
  · exact isPercent_hundred
  · exact isPercent_zero

/-- What is reported as one hundred or more counts as one hundred. -/
theorem clampPercent_of_le {x : Binary64} (h : hundred.le x) : x.clampPercent = hundred := by
  have hlt : ¬x.lt hundred := Binary64.not_lt_of_le h
  have hpos : Binary64.zero.lt hundred := by
    rw [Binary64.lt_of_isFinite isFinite_zero isFinite_hundred, units_zero]
    exact decide_eq_true units_hundred_pos
  unfold Binary64.clampPercent Binary64.max Binary64.min
  rw [if_neg hlt, if_pos hpos]

namespace Tracker

theorem toBinary64_int {n : Int} {x : Binary64} (h : Binary64.ofInt? n = some x) :
    (Amount.int n).toBinary64 = .ok x := by
  unfold Amount.toBinary64
  simp only [h]

/-- The share of a stage is the product of its weight and the part of it that is done, if
the weight is a number. -/
theorem share_eq {s : StageProgress} {x : Binary64} (h : Binary64.ofInt? s.weight = some x) :
    share s = .ok (x * (s.current / hundred)) := by
  rw [share, toBinary64_int h]
  rfl

/-- Whether the share of a stage in the aggregate is a number between two integers. -/
def ShareBetween (lo hi : Int) (s : StageProgress) : Prop :=
  ∃ x, share s = .ok x ∧ x.isFinite ∧ lo * unitsPerOne ≤ x.units ∧ x.units ≤ hi * unitsPerOne

/-- What lies between two parts of a unit is, times a weight, between these parts of the weight. -/
theorem weighted_between {w d a b u : Int} (hu : 0 ≤ u) (hlower : a * u ≤ d) (hupper : d ≤ b * u) :
    min (w * a) (w * b) * u ≤ w * d ∧ w * d ≤ max (w * a) (w * b) * u := by
  have hminA := Int.mul_le_mul_of_nonneg_right (Int.min_le_left (w * a) (w * b)) hu
  have hminB := Int.mul_le_mul_of_nonneg_right (Int.min_le_right (w * a) (w * b)) hu
  have hmaxA := Int.mul_le_mul_of_nonneg_right (Int.le_max_left (w * a) (w * b)) hu
  have hmaxB := Int.mul_le_mul_of_nonneg_right (Int.le_max_right (w * a) (w * b)) hu
  rw [Int.mul_assoc w a u] at hminA hmaxA
  rw [Int.mul_assoc w b u] at hminB hmaxB
  rcases Int.le_total 0 w with hw | hw
  · exact ⟨Int.le_trans hminA (Int.mul_le_mul_of_nonneg_left hlower hw),
      Int.le_trans (Int.mul_le_mul_of_nonneg_left hupper hw) hmaxB⟩
  · -- A negative weight turns the bounds around.
    exact ⟨Int.le_trans hminB (Int.mul_le_mul_of_nonpos_left hw hupper),
      Int.le_trans (Int.mul_le_mul_of_nonpos_left hw hlower) hmaxA⟩

/-- The share of a stage lies between the two parts of its weight, none or all,
between which it is done. -/
theorem shareBetween_of_current {s : StageProgress} (hw : s.weight.natAbs ≤ 2 ^ 53) {a b : Int}
    (ha : a = 0 ∨ a = 1) (hb : b = 0 ∨ b = 1) (hfinite : s.current.isFinite)
    (hlower : a * hundred.units ≤ s.current.units) (hupper : s.current.units ≤ b * hundred.units) :
    ShareBetween (min (s.weight * a) (s.weight * b)) (max (s.weight * a) (s.weight * b)) s := by
  have hone : (0 : Int) ≤ unitsPerOne := Int.natCast_nonneg _
  have hweight := Binary64.ofInt_exact hw
  have hshare := share_eq (Binary64.ofInt?_of_isFinite hweight.1)
  have hrepA : Binary64.Representable (a * unitsPerOne).natAbs :=
    Binary64.representable_natAbs_mul (by omega)
  have hrepB : Binary64.Representable (b * unitsPerOne).natAbs :=
    Binary64.representable_natAbs_mul (by omega)
  have hdoneLower : a * unitsPerOne * hundred.units ≤ s.current.units * unitsPerOne := by
    rw [Int.mul_right_comm]
    exact Int.mul_le_mul_of_nonneg_right hlower hone
  have hdoneUpper : s.current.units * unitsPerOne ≤ b * unitsPerOne * hundred.units := by
    rw [Int.mul_right_comm]
    exact Int.mul_le_mul_of_nonneg_right hupper hone
  obtain ⟨hdone, hda, hdb⟩ :=
    Binary64.div_between hfinite isFinite_hundred units_hundred_pos hrepA hrepB
      hdoneLower hdoneUpper
  obtain ⟨hmin, hmax⟩ := weighted_between (w := s.weight) hone hda hdb
  have hparts : (min (s.weight * a) (s.weight * b)).natAbs ≤ 2 ^ 53 ∧
      (max (s.weight * a) (s.weight * b)).natAbs ≤ 2 ^ 53 := by
    rcases ha with rfl | rfl <;> rcases hb with rfl | rfl <;> omega
  generalize hx : Binary64.ofInt s.weight = x at hweight hshare
  obtain ⟨hfiniteX, hunitsX⟩ := hweight
  have hproduct : x.units * (s.current / hundred).units =
      s.weight * (s.current / hundred).units * unitsPerOne := by rw [hunitsX, Int.mul_right_comm]
  refine ⟨_, hshare,
    Binary64.mul_between hfiniteX hdone (Binary64.representable_natAbs_mul hparts.1)
    (Binary64.representable_natAbs_mul hparts.2) ?_ ?_⟩
  · rw [hproduct]
    exact Int.mul_le_mul_of_nonneg_right hmin hone
  · rw [hproduct]
    exact Int.mul_le_mul_of_nonneg_right hmax hone

/-- The sum of the absolute weights of stages. -/
def absoluteWeight (stages : List StageProgress) : Nat := total (stages.map (·.weight.natAbs))

theorem absoluteWeight_cons (s : StageProgress) (stages : List StageProgress) :
    absoluteWeight (s :: stages) = s.weight.natAbs + absoluteWeight stages := rfl

/-- The running sum of shares between integers stays between the sums of these integers. -/
theorem foldlM_share_between {lo hi : StageProgress → Int} {stages : List StageProgress}
    (hshares : ∀ s ∈ stages, ShareBetween (lo s) (hi s) s)
    (hbounds : ∀ s ∈ stages, (lo s).natAbs ≤ s.weight.natAbs ∧ (hi s).natAbs ≤ s.weight.natAbs)
    {sum : Binary64} (hsum : sum.isFinite) {a b : Int}
    (ha : a.natAbs + absoluteWeight stages ≤ 2 ^ 53)
    (hb : b.natAbs + absoluteWeight stages ≤ 2 ^ 53) (hlower : a * unitsPerOne ≤ sum.units)
    (hupper : sum.units ≤ b * unitsPerOne) :
    ∃ x, stages.foldlM (fun sum s => return sum + (← share s)) sum =
      (.ok x : Except Failure Binary64) ∧ x.isFinite ∧
      (a + total (stages.map lo)) * unitsPerOne ≤ x.units ∧
      x.units ≤ (b + total (stages.map hi)) * unitsPerOne := by
  induction stages generalizing sum a b with
  | nil =>
    have hlo : total (([] : List StageProgress).map lo) = 0 := rfl
    have hhi : total (([] : List StageProgress).map hi) = 0 := rfl
    rw [hlo, hhi, Int.add_zero, Int.add_zero]
    exact ⟨sum, rfl, hsum, hlower, hupper⟩
  | cons s stages ih =>
    obtain ⟨x, hx, hfinite, hlo, hhi⟩ := hshares s (List.mem_cons_self ..)
    obtain ⟨hloBound, hhiBound⟩ := hbounds s (List.mem_cons_self ..)
    rw [absoluteWeight_cons] at ha hb
    have hrepA : Binary64.Representable ((a + lo s) * unitsPerOne).natAbs :=
      Binary64.representable_natAbs_mul (by omega)
    have hrepB : Binary64.Representable ((b + hi s) * unitsPerOne).natAbs :=
      Binary64.representable_natAbs_mul (by omega)
    have hnextLower : (a + lo s) * unitsPerOne ≤ sum.units + x.units := by
      rw [Int.add_mul]
      exact Int.add_le_add hlower hlo
    have hnextUpper : sum.units + x.units ≤ (b + hi s) * unitsPerOne := by
      rw [Int.add_mul]
      exact Int.add_le_add hupper hhi
    obtain ⟨hnext, hnextA, hnextB⟩ :=
      Binary64.add_between hsum hfinite hrepA hrepB hnextLower hnextUpper
    obtain ⟨y, hy, hrest⟩ := ih (fun r hr => hshares r (List.mem_cons_of_mem s hr))
      (fun r hr => hbounds r (List.mem_cons_of_mem s hr)) hnext (by omega) (by omega) hnextA hnextB
    rw [List.map_cons, List.map_cons, total_cons, total_cons, ← Int.add_assoc, ← Int.add_assoc]
    refine ⟨y, ?_, hrest⟩
    rw [List.foldlM_cons, hx]
    exact hy

/-- **The aggregate.** It lies between the sums of integers between which the shares lie. -/
theorem aggregate_between {lo hi : StageProgress → Int} {stages : List StageProgress}
    (hweights : absoluteWeight stages ≤ 2 ^ 53)
    (hshares : ∀ s ∈ stages, ShareBetween (lo s) (hi s) s)
    (hbounds : ∀ s ∈ stages, (lo s).natAbs ≤ s.weight.natAbs ∧ (hi s).natAbs ≤ s.weight.natAbs) :
    ∃ n, aggregate stages = .ok n ∧ total (stages.map lo) ≤ n ∧ n ≤ total (stages.map hi) := by
  have hstart : (0 : Int) * unitsPerOne = Binary64.zero.units := by rw [Int.zero_mul, units_zero]
  have hzero : (0 : Int).natAbs + absoluteWeight stages ≤ 2 ^ 53 := by omega
  obtain ⟨x, hx, hfinite, hlower, hupper⟩ :=
    foldlM_share_between hshares hbounds isFinite_zero hzero hzero
    (Int.le_of_eq hstart) (Int.le_of_eq hstart.symm)
  rw [Int.zero_add] at hlower hupper
  rw [aggregate, hx]
  exact Binary64.roundToInt_between hfinite hlower hupper

theorem natAbs_le_absoluteWeight {s : StageProgress} {stages : List StageProgress}
    (h : s ∈ stages) : s.weight.natAbs ≤ absoluteWeight stages := by
  induction stages with
  | nil => exact absurd h List.not_mem_nil
  | cons r stages ih =>
    rw [absoluteWeight_cons]
    rcases List.mem_cons.1 h with rfl | h
    · omega
    · have := ih h
      omega

/-- The aggregate of percentages lies between the sum of the negative weights and that
of the positive ones. -/
theorem aggregate_of_percent {stages : List StageProgress}
    (hweights : absoluteWeight stages ≤ 2 ^ 53) (h : ∀ s ∈ stages, IsPercent s.current) :
    ∃ n, aggregate stages = .ok n ∧ total (stages.map fun s => min 0 s.weight) ≤ n ∧
      n ≤ total (stages.map fun s => max 0 s.weight) := by
  refine aggregate_between hweights (fun s hs => ?_) fun s _ => by omega
  obtain ⟨hfinite, hlower, hupper⟩ := isPercent_iff.1 (h s hs)
  rw [← Int.zero_mul hundred.units] at hlower
  rw [← Int.one_mul hundred.units] at hupper
  have hshare := shareBetween_of_current (Nat.le_trans (natAbs_le_absoluteWeight hs) hweights)
    (.inl rfl) (.inr rfl)
    hfinite hlower hupper
  rwa [Int.mul_zero, Int.mul_one] at hshare

/-- Stages all of which are at their start, or all done, add up to none or all of their weights. -/
theorem aggregate_of_current {a : Int} (ha : a = 0 ∨ a = 1) {stages : List StageProgress}
    (hweights : absoluteWeight stages ≤ 2 ^ 53)
    (h : ∀ s ∈ stages, s.current.isFinite ∧ s.current.units = a * hundred.units) :
    aggregate stages = .ok (total (stages.map fun s => s.weight * a)) := by
  have hshares : ∀ s ∈ stages, ShareBetween (s.weight * a) (s.weight * a) s := by
    intro s hs
    obtain ⟨hfinite, hunits⟩ := h s hs
    have hshare := shareBetween_of_current (Nat.le_trans (natAbs_le_absoluteWeight hs) hweights)
      ha ha hfinite
      (Int.le_of_eq hunits.symm) (Int.le_of_eq hunits)
    rwa [Int.min_self, Int.max_self] at hshare
  have hbounds : ∀ s ∈ stages, (s.weight * a).natAbs ≤ s.weight.natAbs ∧
      (s.weight * a).natAbs ≤ s.weight.natAbs := by
    intro s _
    rcases ha with rfl | rfl <;> omega
  obtain ⟨n, hn, hlower, hupper⟩ := aggregate_between hweights hshares hbounds
  rw [hn, Int.le_antisymm hupper hlower]

/-- Stages at their start add up to nothing. -/
theorem aggregate_of_start {stages : List StageProgress} (hweights : absoluteWeight stages ≤ 2 ^ 53)
    (h : ∀ s ∈ stages, s.current = Binary64.zero) : aggregate stages = .ok 0 := by
  have hcurrent : ∀ s ∈ stages, s.current.isFinite ∧ s.current.units = 0 * hundred.units := by
    intro s hs
    rw [h s hs, Int.zero_mul]
    exact ⟨isFinite_zero, units_zero⟩
  have hnone : total (stages.map fun s => s.weight * 0) = 0 := by
    show (stages.map fun s => s.weight * 0).sum = 0
    simp
  rw [aggregate_of_current (.inl rfl) hweights hcurrent, hnone]

/-- Stages that are done add up to their weights. -/
theorem aggregate_of_done {stages : List StageProgress} (hweights : absoluteWeight stages ≤ 2 ^ 53)
    (h : ∀ s ∈ stages, s.current = hundred) :
    aggregate stages = .ok (total (stages.map (·.weight))) := by
  have hcurrent : ∀ s ∈ stages, s.current.isFinite ∧ s.current.units = 1 * hundred.units := by
    intro s hs
    rw [h s hs, Int.one_mul]
    exact ⟨isFinite_hundred, rfl⟩
  rw [aggregate_of_current (.inr rfl) hweights hcurrent]
  simp only [Int.mul_one]

/-- A weight that is no number has no share. -/
theorem share_of_overflow {s : StageProgress} (h : Binary64.ofInt? s.weight = none) :
    share s = .error .integerTooLarge := by
  have hweight : (Amount.int s.weight).toBinary64 = .error .integerTooLarge := by
    unfold Amount.toBinary64
    simp only [h]
  rw [share, hweight]
  rfl

theorem foldlM_share_of_overflow {stages : List StageProgress}
    (h : ∃ s ∈ stages, Binary64.ofInt? s.weight = none) (sum : Binary64) :
    stages.foldlM (fun sum s => return sum + (← share s)) sum =
      (.error .integerTooLarge : Except Failure Binary64) := by
  induction stages generalizing sum with
  | nil =>
    obtain ⟨s, hs, -⟩ := h
    exact absurd hs List.not_mem_nil
  | cons r stages ih =>
    rw [List.foldlM_cons]
    cases hr : Binary64.ofInt? r.weight with
    | none =>
      rw [share_of_overflow hr]
      rfl
    | some x =>
      obtain ⟨s, hs, hnone⟩ := h
      have hrest : ∃ s ∈ stages, Binary64.ofInt? s.weight = none := by
        rcases List.mem_cons.1 hs with rfl | hs
        · rw [hr] at hnone
          cases hnone
        · exact ⟨s, hs, hnone⟩
      rw [share_eq hr]
      exact ih hrest _

/-- Stages of which one has a weight that is no number do not aggregate, however
much of them is done. -/
theorem aggregate_of_overflow {stages : List StageProgress}
    (h : ∃ s ∈ stages, Binary64.ofInt? s.weight = none) :
    aggregate stages = .error .integerTooLarge := by
  rw [aggregate, foldlM_share_of_overflow h]
  rfl

end Tracker

end CodeSurvey
