/-
# The order of numbers

Rounding never passes a representable number: what lies between two of them is rounded to something
between them (`exists_nearest_of_le`, `le_units_of_nearest`, `roundInt_between`), and so a
representable number is rounded to itself. That holds although the grid on which a quotient is
rounded depends on the quotient, since the numbers on the grid of a greater number are on the grid
of a smaller one, and a number that is coarser than the grid is beyond the binade. So the integers
with at most 53 bits are numbers (`ofInt_exact`), integers have a nearest finite number up to half a
step before `2¹⁰²⁴` (`ofInt?_eq_none_iff`), and the quotient of a part and a whole is a number
between zero and one (`ofRatio_between`).

Of two numbers only one can be below the other, and equal numbers are not below each other, whether
they are finite or not; nothing is below an undefined number.
-/

import CodeSurvey.Proofs.Number.Sum
import Mathlib.Tactic.Linarith
import Mathlib.Tactic.Ring
import Mathlib.Tactic.Zify

namespace CodeSurvey
namespace Binary64

theorem lt_asymm {v w : Binary64} (h : v.lt w) : ¬w.lt v := by
  cases v <;> cases w <;> simp_all [lt]
  omega

theorem not_lt_of_same {v w : Binary64} (h : v.same w) : ¬v.lt w := by
  cases v <;> cases w <;> simp_all [lt, same]

/-- Of two defined numbers one is not below the other exactly if the other is at most as great. -/
theorem not_lt_iff_le {v w : Binary64} (hv : v ≠ .nan) (hw : w ≠ .nan) : ¬v.lt w ↔ w.le v := by
  cases v <;> cases w <;> grind [lt, le, same]

theorem le_of_lt {v w : Binary64} (h : v.lt w) : v.le w := by
  rw [le, h, Bool.true_or]

theorem not_lt_of_le {v w : Binary64} (h : v.le w) : ¬w.lt v := by
  cases v <;> cases w <;> grind [lt, le, same]

/-- What lies between two finite numbers is finite. -/
theorem isFinite_of_between {u v w : Binary64} (hu : u.isFinite) (hw : w.isFinite) (huv : u.le v)
    (hvw : v.le w) : v.isFinite := by
  cases u <;> cases v <;> cases w <;> simp_all [lt, le, same, isFinite]

theorem lt_of_lt_of_le {u v w : Binary64} (huv : u.lt v) (hvw : v.le w) : u.lt w := by
  cases u <;> cases v <;> cases w <;> grind [lt, le, same]

/-- A quotient that is at most a whole number is rounded to at most this number. -/
theorem roundQuotient_le_of_le {num den k : Nat} (hden : 0 < den) (h : num ≤ k * den) :
    roundQuotient num den ≤ k := by
  have hsplit := Nat.div_add_mod num den
  have hr := Nat.mod_lt num hden
  unfold roundQuotient
  dsimp only
  generalize num / den = q at *
  generalize num % den = r at *
  rw [Nat.mul_comm k] at h
  rcases Nat.lt_or_ge q k with hlt | hge
  · split <;> omega
  · -- The quotient is the whole number itself, so nothing is rounded up.
    have hle := Nat.mul_le_mul_left den hge
    have hq : q = k := Nat.eq_of_mul_eq_mul_left hden (by omega)
    subst hq
    have hzero : r = 0 := by omega
    subst hzero
    rw [if_neg]
    simp
    omega

/-- A quotient that is at least a whole number is rounded to at least this number. -/
theorem le_roundQuotient_of_le {num den k : Nat} (hden : 0 < den) (h : k * den ≤ num) :
    k ≤ roundQuotient num den :=
  Nat.le_trans ((Nat.le_div_iff_mul_le hden).2 h) (le_roundQuotient num den)

/-- A representable count at least as large as a quotient is on the grid of the quotient. -/
theorem grid_dvd_of_le {q n : Nat} (hn : Representable n) (h : q ≤ n) : 2 ^ (q.log2 - 52) ∣ n := by
  have hgrid : 2 ^ (n.log2 - 52) ∣ n := by
    have := hn.2
    rwa [Nat.pow_eq] at this
  have hlog : q.log2 ≤ n.log2 := by
    by_cases hq : q = 0
    · subst hq
      exact Nat.zero_le _
    · exact (Nat.le_log2 (by omega)).2 (Nat.le_trans (Nat.log2_self_le hq) h)
  exact Nat.dvd_trans (Nat.pow_dvd_pow 2 (Nat.sub_le_sub_right hlog 52)) hgrid

/-- A quotient that is at most a representable count is rounded to at most this count. -/
theorem rounded_le {num den n : Nat} (hden : 0 < den) (hn : Representable n) (h : num ≤ n * den) :
    roundQuotient num (den * 2 ^ gridExponent num den) * 2 ^ gridExponent num den ≤ n := by
  have hquotient : num / den ≤ n := Nat.div_le_of_le_mul (by rwa [Nat.mul_comm] at h)
  obtain ⟨t, rfl⟩ := grid_dvd_of_le hn hquotient
  rw [gridExponent, Nat.mul_comm]
  refine Nat.mul_le_mul_left _ (roundQuotient_le_of_le (Nat.mul_pos hden (Nat.two_pow_pos _)) ?_)
  calc num ≤ 2 ^ ((num / den).log2 - 52) * t * den := h
    _ = t * (den * 2 ^ ((num / den).log2 - 52)) := by ring

/-- A quotient that is at least a representable count is rounded to at least this count. -/
theorem le_rounded {num den n : Nat} (hden : 0 < den) (hn : Representable n) (h : n * den ≤ num) :
    n ≤ roundQuotient num (den * 2 ^ gridExponent num den) * 2 ^ gridExponent num den := by
  have hquotient : n ≤ num / den := (Nat.le_div_iff_mul_le hden).2 h
  unfold gridExponent
  generalize hs : (num / den).log2 - 52 = s
  have hpos : 0 < den * 2 ^ s := Nat.mul_pos hden (Nat.two_pow_pos s)
  by_cases hgrid : 2 ^ s ∣ n
  · obtain ⟨t, rfl⟩ := hgrid
    rw [Nat.mul_comm]
    refine Nat.mul_le_mul_right _ (le_roundQuotient_of_le hpos ?_)
    calc t * (den * 2 ^ s) = 2 ^ s * t * den := by ring
      _ ≤ num := h
  · -- The count is not on the grid, so it is below the binade of the quotient, which starts on
    -- the grid.
    have hfiner : n.log2 - 52 < s := by
      by_contra hcoarse
      have hcount := hn.2
      rw [Nat.pow_eq] at hcount
      exact hgrid (Nat.dvd_trans (Nat.pow_dvd_pow 2 (Nat.le_of_not_lt hcoarse)) hcount)
    have hlog : (num / den).log2 = 52 + s := by omega
    have hbelow : n < 2 ^ (52 + s) := by
      refine Nat.lt_of_lt_of_le Nat.lt_log2_self (Nat.pow_le_pow_right Nat.two_pos ?_)
      omega
    have hbinade : 2 ^ (52 + s) ≤ num / den := by
      rw [← hlog]
      refine Nat.log2_self_le fun hzero => ?_
      rw [hzero, Nat.log2_zero] at hlog
      omega
    have hstart : 2 ^ 52 ≤ roundQuotient num (den * 2 ^ s) := by
      refine le_roundQuotient_of_le hpos ?_
      calc 2 ^ 52 * (den * 2 ^ s) = 2 ^ (52 + s) * den := by ring
        _ ≤ num := (Nat.le_div_iff_mul_le hden).1 hbinade
    calc n ≤ 2 ^ 52 * 2 ^ s := by rw [← Nat.pow_add]; exact Nat.le_of_lt hbelow
      _ ≤ _ := Nat.mul_le_mul_right _ hstart

/-- The rounding of a quotient that is at most a representable count is at most this count. -/
theorem exists_nearest_of_le {num den n : Nat} (hden : 0 < den) (hn : Representable n)
    (h : num ≤ n * den) : ∃ m, nearest num den = some m ∧ m.units ≤ n := by
  have hrounded := rounded_le hden hn h
  have hfits : roundQuotient num (den * Nat.pow 2 (gridExponent num den)) *
      Nat.pow 2 (gridExponent num den) <
      limit := Nat.lt_of_le_of_lt hrounded hn.1
  refine ⟨⟨_, representable_shift (roundQuotient_le num den) hfits⟩, ?_, hrounded⟩
  unfold nearest
  dsimp only
  rw [dif_pos hfits]

/-- The rounding of a quotient that is at least a representable count is at least this count. -/
theorem le_units_of_nearest {num den n : Nat} (hden : 0 < den) (hn : Representable n)
    (h : n * den ≤ num) {m : Magnitude} (hm : nearest num den = some m) : n ≤ m.units := by
  have hrounded := le_rounded hden hn h
  unfold nearest at hm
  dsimp only at hm
  split at hm
  · rw [← Option.some.inj hm]
    exact hrounded
  · cases hm

theorem round_eq_finite {negative : Bool} {num den : Nat} {m : Magnitude}
    (h : nearest num den = some m) : round negative num den = .finite negative m := by
  unfold round
  split
  · rename_i m' hm'
    rw [h] at hm'
    rw [Option.some.inj hm']
  · rename_i hnone
    rw [h] at hnone
    cases hnone

/-- **Rounding never passes a representable number.** The number nearest to a quotient between two
representable counts is finite and lies between them. -/
theorem roundInt_between {n a b : Int} {den : Nat} (hden : 0 < den) (ha : Representable a.natAbs)
    (hb : Representable b.natAbs) (han : a * den ≤ n) (hnb : n ≤ b * den) :
    (roundInt n den).isFinite ∧ a ≤ (roundInt n den).units ∧ (roundInt n den).units ≤ b := by
  have hden' : (0 : Int) < den := Int.natCast_pos.2 hden
  rcases Int.lt_or_le n 0 with hneg | hnonneg
  · -- Here the lower bound is the greater count.
    have haneg : a < 0 := by
      by_contra h
      have := Int.mul_nonneg (Int.not_lt.1 h) (Int.le_of_lt hden')
      omega
    have hle : n.natAbs ≤ a.natAbs * den := by
      zify
      rw [abs_of_neg hneg, abs_of_neg haneg]
      linarith
    obtain ⟨m, hm, hupper⟩ := exists_nearest_of_le hden ha hle
    have hround : roundInt n den = .finite true m := by
      rw [roundInt, round_eq_finite hm, decide_eq_true hneg]
    rw [hround]
    refine ⟨rfl, ?_, ?_⟩
    · show a ≤ -(m.units : Int)
      omega
    · show -(m.units : Int) ≤ b
      rcases Int.lt_or_le b 0 with hbneg | hbnonneg
      · have hge : b.natAbs * den ≤ n.natAbs := by
          zify
          rw [abs_of_neg hneg, abs_of_neg hbneg]
          linarith
        have hlower := le_units_of_nearest hden hb hge hm
        omega
      · omega
  · have hbnonneg : 0 ≤ b := by
      by_contra h
      have := Int.mul_neg_of_neg_of_pos (Int.not_le.1 h) hden'
      omega
    have hle : n.natAbs ≤ b.natAbs * den := by
      zify
      rw [abs_of_nonneg hnonneg, abs_of_nonneg hbnonneg]
      exact hnb
    obtain ⟨m, hm, hupper⟩ := exists_nearest_of_le hden hb hle
    have hround : roundInt n den = .finite false m := by
      rw [roundInt, round_eq_finite hm, decide_eq_false (Int.not_lt.2 hnonneg)]
    rw [hround]
    refine ⟨rfl, ?_, ?_⟩
    · show a ≤ (m.units : Int)
      rcases Int.lt_or_le 0 a with hapos | hanonpos
      · have hge : a.natAbs * den ≤ n.natAbs := by
          zify
          rw [abs_of_nonneg hnonneg, abs_of_pos hapos]
          exact han
        have hlower := le_units_of_nearest hden ha hge hm
        omega
      · omega
    · show (m.units : Int) ≤ b
      omega

/-- Finite numbers are in order as their units are. -/
theorem le_of_isFinite {v w : Binary64} (hv : v.isFinite) (hw : w.isFinite) :
    v.le w = decide (v.units ≤ w.units) := by
  rw [le, lt_of_isFinite hv hw, same_of_isFinite hv hw, ← Bool.decide_or, decide_eq_decide]
  omega

-- The exponent is kept apart from its value, as no step should try to write out a
-- power as great as this.
theorem exists_unitsPerOne_eq : ∃ e, e = 1074 ∧ unitsPerOne = Nat.pow 2 e := by
  unfold unitsPerOne
  exact ⟨_, rfl, Eq.refl _⟩

/-- The units of whole numbers with at most 53 bits are representable. -/
theorem representable_mul_unitsPerOne {k : Nat} (h : k ≤ 2 ^ 53) :
    Representable (k * unitsPerOne) := by
  obtain ⟨e, he, hone⟩ := exists_unitsPerOne_eq
  obtain ⟨e', he'⟩ : ∃ e, e = 2044 := ⟨_, rfl⟩
  rw [hone]
  refine representable_shift h ?_
  rw [limit_eq he', Nat.pow_eq]
  calc k * 2 ^ e ≤ 2 ^ 53 * 2 ^ e := Nat.mul_le_mul_right _ h
    _ = 2 ^ (53 + e) := (Nat.pow_add 2 53 e).symm
    _ < 2 ^ (54 + e') := Nat.pow_lt_pow_right (by decide) (by omega)

theorem representable_natAbs_mul {k : Int} (h : k.natAbs ≤ 2 ^ 53) :
    Representable (k * unitsPerOne).natAbs := by
  rw [Int.natAbs_mul, Int.natAbs_natCast]
  exact representable_mul_unitsPerOne h

/-- Whole numbers with at most 53 bits are numbers. -/
theorem ofInt_exact {k : Int} (h : k.natAbs ≤ 2 ^ 53) :
    (ofInt k).isFinite ∧ (ofInt k).units = k * unitsPerOne := by
  have hrep := representable_natAbs_mul h
  have hone : k * unitsPerOne * ((1 : Nat) : Int) = k * unitsPerOne := Int.mul_one _
  obtain ⟨hfinite, hlower, hupper⟩ :=
    roundInt_between Nat.one_pos hrep hrep (Int.le_of_eq hone) (Int.le_of_eq hone.symm)
  exact ⟨hfinite, Int.le_antisymm hupper hlower⟩

/-- An integer is a number unless it would be infinite. -/
theorem ofInt?_of_isFinite {k : Int} (h : (ofInt k).isFinite) : ofInt? k = some (ofInt k) := by
  unfold ofInt?
  unfold ofInt at h ⊢
  split
  · rename_i hinfinite
    rw [hinfinite] at h
    cases h
  · rfl

/-- Where the whole numbers that have a nearest finite number end: half a step before `2¹⁰²⁴`. -/
def wholeEnd : Nat := 2 ^ 1024 - 2 ^ 970

/-- **The range of whole numbers.** A whole number has no nearest finite number from
the end of the range on. -/
theorem ofInt?_eq_none_iff {n : Int} : ofInt? n = none ↔ wholeEnd ≤ n.natAbs := by
  obtain ⟨a, ha⟩ : ∃ a, a = 970 := ⟨_, rfl⟩
  obtain ⟨b, hb, hone⟩ := exists_unitsPerOne_eq
  have hstep : halfStep = 2 ^ a * 2 ^ b := by
    rw [halfStep_eq (e := a + b) (by omega), Nat.pow_add]
  have hlimit : wholeEnd = (2 ^ 54 - 1) * 2 ^ a := by
    subst ha
    rw [wholeEnd, Nat.sub_mul, Nat.one_mul, ← Nat.pow_add]
  have hunits : (n * unitsPerOne).natAbs = n.natAbs * 2 ^ b := by
    rw [Int.natAbs_mul, Int.natAbs_natCast, hone, Nat.pow_eq]
  have hnearest : ofInt? n = none ↔ ¬ (nearest (n * unitsPerOne).natAbs 1).isSome := by
    unfold ofInt? roundInt round
    cases nearest (n * unitsPerOne).natAbs 1 with
    | none => exact ⟨fun _ => Bool.false_ne_true, fun _ => rfl⟩
    | some m => exact ⟨nofun, fun h => absurd rfl h⟩
  rw [hnearest, isSome_nearest_iff, hunits, hstep, ← Nat.mul_assoc,
    Nat.mul_lt_mul_right (Nat.two_pow_pos b), Nat.not_lt, hlimit]

theorem unitsPerOne_pos : 0 < unitsPerOne := by
  obtain ⟨e, -, hone⟩ := exists_unitsPerOne_eq
  rw [hone, Nat.pow_eq]
  exact Nat.two_pow_pos e

theorem representable_unitsPerOne : Representable unitsPerOne := by
  have h := representable_mul_unitsPerOne (k := 1) (by decide)
  rwa [Nat.one_mul] at h

theorem representable_zero : Representable 0 := ⟨limit_pos, Nat.dvd_zero _⟩

theorem representable_one : Representable 1 := by
  have hlimit : 1 < limit := Nat.lt_of_le_of_lt unitsPerOne_pos representable_unitsPerOne.1
  exact ⟨hlimit, Nat.dvd_refl 1⟩

/-- Whole numbers up to a power of two within the range have a nearest number that is finite. -/
theorem isFinite_ofInt_of_le {e : Nat} (he : e ≤ 1023) {k : Nat} (h : k ≤ 2 ^ e) :
    (ofInt k).isFinite := by
  obtain ⟨e', he', hone⟩ := exists_unitsPerOne_eq
  obtain ⟨e'', he''⟩ : ∃ e, e = 2044 := ⟨_, rfl⟩
  have hpower : 2 ^ e * unitsPerOne = 1 * 2 ^ (e + e') := by
    rw [hone, Nat.one_mul, Nat.pow_eq, Nat.pow_add]
  have hrep : Representable (2 ^ e * unitsPerOne) := by
    rw [hpower]
    refine representable_shift Nat.one_le_two_pow ?_
    rw [Nat.one_mul, limit_eq he'']
    exact Nat.pow_lt_pow_right (by decide) (by omega)
  have hlower : (0 : Int) * ((1 : Nat) : Int) ≤ k * unitsPerOne := by
    rw [Int.zero_mul]
    exact_mod_cast Nat.zero_le (k * unitsPerOne)
  have hupper : (k * unitsPerOne : Int) ≤ ((2 ^ e * unitsPerOne : Nat) : Int) *
      ((1 : Nat) : Int) := by
    exact_mod_cast (Nat.mul_le_mul_right unitsPerOne h).trans_eq (Nat.mul_one _).symm
  exact (roundInt_between Nat.one_pos (a := 0) representable_zero
    (by rwa [Int.natAbs_natCast]) hlower hupper).1

/-- **Shares.** The quotient of a part and a whole is a number between zero and one. It is positive
if the part is, unless the whole is so great that rounding takes it away. -/
theorem ofRatio_between {n d : Nat} (hd : 0 < d) (hn : n ≤ d) :
    (ofRatio n d).isFinite ∧ 0 ≤ (ofRatio n d).units ∧ (ofRatio n d).units ≤ unitsPerOne ∧
      (0 < n → d ≤ unitsPerOne → 0 < (ofRatio n d).units) := by
  have hone : Representable (unitsPerOne : Int).natAbs := by
    rw [Int.natAbs_natCast]
    exact representable_unitsPerOne
  have hupper : (n * unitsPerOne : Int) ≤ unitsPerOne * d := by
    rw [Int.mul_comm]
    exact_mod_cast Nat.mul_le_mul_left unitsPerOne hn
  have hlower : (0 : Int) * d ≤ n * unitsPerOne := by
    rw [Int.zero_mul]
    exact_mod_cast Nat.zero_le _
  obtain ⟨hfinite, hnonneg, hle⟩ :=
    roundInt_between hd (a := 0) representable_zero hone hlower hupper
  refine ⟨hfinite, hnonneg, hle, fun hpos hsmall => ?_⟩
  have hunit : (1 : Int) * d ≤ n * unitsPerOne := by
    rw [Int.one_mul]
    exact_mod_cast Nat.le_trans hsmall (Nat.le_mul_of_pos_left unitsPerOne hpos)
  obtain ⟨-, hge, -⟩ := roundInt_between hd (a := 1) representable_one hone hunit hupper
  exact Int.lt_of_lt_of_le Int.zero_lt_one hge

end Binary64
end CodeSurvey
