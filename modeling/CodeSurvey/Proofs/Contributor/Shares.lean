/-
# Shares in percent

The share of some commits is their number divided by that of all, times one hundred, and shares
are added up; each of these operations rounds. The numbers between zero and `2⁸` have steps of
`2⁻⁴⁵`, so a single share is at most two such steps away from the exact one (`ratio_isShare`),
and each further share adds three at most (`IsShare.add`). A sum of ten shares of fewer than
`2⁴⁵` commits is therefore at least fifty if the commits are more than half of all, and below
fifty if they are less (`IsShare.half_le`, `IsShare.not_half_le`); of commits that are exactly
half of all it may be either.
-/

import CodeSurvey.Contributor
import CodeSurvey.Proofs.Number.Grid

namespace CodeSurvey
namespace Contributor

open Binary64 (unitsPerOne unitsPerOne_pos IsStep)

/-- A step of `2⁻⁵²`, on the grid of numbers up to two, while that of percentages
is `2⁷` times as great. -/
structure FineStep (w : Nat) : Prop where
  fine : IsStep w
  coarse : IsStep (2 ^ 7 * w)
  one_eq : unitsPerOne = 2 ^ 52 * w

theorem exists_fineStep : ∃ w, FineStep w := by
  obtain ⟨e, he, hone⟩ := Binary64.exists_unitsPerOne_eq
  obtain ⟨s, hs⟩ : ∃ s, e = 52 + s := ⟨e - 52, by omega⟩
  have hcoarse : 2 ^ 7 * 2 ^ s = 2 ^ (7 + s) := (Nat.pow_add 2 7 s).symm
  have hunits : unitsPerOne = 2 ^ 52 * 2 ^ s := by rw [hone, Nat.pow_eq, hs, Nat.pow_add]
  exact ⟨2 ^ s, ⟨⟨s, by omega, rfl⟩, ⟨7 + s, by omega, hcoarse⟩, hunits⟩⟩

/-- Whether a number is the share in percent that so many of all commits have, up to some
steps of the coarser grid. -/
structure IsShare (w all : Nat) (x : Binary64) (made steps : Nat) : Prop where
  finite : x.isFinite
  zero_le : 0 ≤ x.units
  lower : 100 * made * unitsPerOne - steps * (2 ^ 7 * w) * all ≤ x.units * all
  upper : x.units * all ≤ 100 * made * unitsPerOne + steps * (2 ^ 7 * w) * all

theorem isShare_zero (w all : Nat) : IsShare w all .zero 0 0 where
  finite := isFinite_zero
  zero_le := Int.le_refl 0
  lower := by
    rw [units_zero, Int.natCast_zero, Int.mul_zero, Int.zero_mul, Int.zero_mul, Int.zero_mul,
      Int.sub_zero]
  upper := by
    rw [units_zero, Int.natCast_zero, Int.mul_zero, Int.zero_mul, Int.zero_mul, Int.zero_mul,
      Int.zero_mul, Int.add_zero]

variable {w all : Nat}

/-- The quotient of a part of the commits and all of them. -/
theorem ratio_near (hw : FineStep w) (hall : 0 < all) {made : Nat} (hmade : made ≤ all) :
    ∃ x, ratio made all = .ok x ∧ x.isFinite ∧ 0 ≤ x.units ∧ x.units ≤ unitsPerOne ∧
      made * unitsPerOne - w * all ≤ x.units * all ∧
        x.units * all ≤ made * unitsPerOne + w * all := by
  obtain ⟨hfinite, hnonneg, hle, -⟩ := Binary64.ofRatio_between hall hmade
  have hratio : Binary64.ofRatio made all = Binary64.roundInt (made * unitsPerOne) all := rfl
  have hpos : 0 < w * all := Nat.mul_pos hw.fine.pos hall
  have hfits : made * unitsPerOne < 2 ^ 53 * (w * all) := by
    rw [hw.one_eq]
    have hle : made * (2 ^ 52 * w) ≤ all * (2 ^ 52 * w) := Nat.mul_le_mul_right _ hmade
    calc made * (2 ^ 52 * w) ≤ all * (2 ^ 52 * w) := hle
      _ = 2 ^ 52 * (w * all) := by ring
      _ < 2 ^ 53 * (w * all) := Nat.mul_lt_mul_of_pos_right (by decide) hpos
  obtain ⟨-, -, hlower, hupper⟩ := Binary64.roundInt_near hw.fine hall (n := made * unitsPerOne)
    (Int.mul_nonneg (Int.natCast_nonneg _) (Int.natCast_nonneg _)) (by exact_mod_cast hfits)
  rw [← hratio] at hlower hupper
  exact ⟨_, ratio_of_isFinite hfinite, hfinite, hnonneg, hle, hlower, hupper⟩

/-- **A share is at most two steps away from the exact one.** -/
theorem ratio_isShare (hw : FineStep w) (hall : 0 < all) {made : Nat} (hmade : made ≤ all) :
    ∃ x, ratio made all = .ok x ∧ IsShare w all (x * hundred) made 2 := by
  obtain ⟨x, hx, hfinite, hnonneg, hle, hlower, hupper⟩ := ratio_near hw hall hmade
  have hone : (unitsPerOne : Int) = 2 ^ 52 * w := by exact_mod_cast hw.one_eq
  have hpos : (0 : Int) < unitsPerOne := Int.natCast_pos.2 unitsPerOne_pos
  have hwpos : (0 : Int) < w := Int.natCast_pos.2 hw.fine.pos
  have hallpos : (0 : Int) < all := Int.natCast_pos.2 hall
  have hexact : x.units * hundred.units = 100 * x.units * unitsPerOne := by
    rw [units_hundred]
    ring
  have hfits : x.units * hundred.units < 2 ^ 53 * (((2 ^ 7 * w : Nat) : Int) * unitsPerOne) := by
    rw [hexact, ← Int.mul_assoc]
    refine Int.mul_lt_mul_of_pos_right ?_ hpos
    push_cast
    omega
  obtain ⟨hfinite', hnonneg', hlower', hupper'⟩ :=
    Binary64.mul_near hw.coarse hfinite isFinite_hundred
    (Int.mul_nonneg hnonneg (Int.le_of_lt units_hundred_pos)) hfits
  -- The units of one, by which the exact product is divided, are taken out of the bounds.
  rw [hexact, ← Int.sub_mul] at hlower'
  rw [hexact, ← Int.add_mul] at hupper'
  have hproductLower := Int.le_of_mul_le_mul_right hlower' hpos
  have hproductUpper := Int.le_of_mul_le_mul_right hupper' hpos
  push_cast at hproductLower hproductUpper
  have hlowerAll := Int.mul_le_mul_of_nonneg_right hproductLower (Int.le_of_lt hallpos)
  have hupperAll := Int.mul_le_mul_of_nonneg_right hproductUpper (Int.le_of_lt hallpos)
  have hwall : (0 : Int) ≤ w * all := Int.mul_nonneg (Int.le_of_lt hwpos) (Int.le_of_lt hallpos)
  refine ⟨x, hx, hfinite', hnonneg', ?_, ?_⟩ <;> push_cast <;> linarith

/-- Shares add up, with one more step for the sum. -/
theorem IsShare.add (hw : FineStep w) (hall : 0 < all) {x y : Binary64} {a b m n : Nat}
    (hx : IsShare w all x a m) (hy : IsShare w all y b n) (hab : a + b ≤ all)
    (hmn : m + n ≤ 2 ^ 45) : IsShare w all (x + y) (a + b) (m + n + 1) := by
  have hone : (unitsPerOne : Int) = 2 ^ 52 * w := by exact_mod_cast hw.one_eq
  have hwpos : (0 : Int) < w := Int.natCast_pos.2 hw.fine.pos
  have hallpos : (0 : Int) < all := Int.natCast_pos.2 hall
  have hsum : (x.units + y.units) * all ≤
      100 * ((a + b : Nat) : Int) * unitsPerOne + ((m + n : Nat) : Int) * (2 ^ 7 * w) * all := by
    have := hx.upper
    have := hy.upper
    push_cast
    linarith
  have hfits : x.units + y.units < 2 ^ 53 * ((2 ^ 7 * w : Nat) : Int) := by
    have hpart : ((a + b : Nat) : Int) * w ≤ all * w :=
      Int.mul_le_mul_of_nonneg_right (by exact_mod_cast hab) (Int.le_of_lt hwpos)
    have hsteps : ((m + n : Nat) : Int) * (w * all) ≤ 2 ^ 45 * (w * all) :=
      Int.mul_le_mul_of_nonneg_right (by exact_mod_cast hmn)
        (Int.mul_nonneg (Int.le_of_lt hwpos) (Int.le_of_lt hallpos))
    have hwall : (0 : Int) < w * all := Int.mul_pos hwpos hallpos
    refine Int.lt_of_mul_lt_mul_right (a := (all : Int)) ?_ (Int.le_of_lt hallpos)
    rw [hone] at hsum
    push_cast at hsum hpart hsteps ⊢
    linarith
  obtain ⟨hfinite, hnonneg, hlower, hupper⟩ := Binary64.add_near hw.coarse hx.finite hy.finite
    (Int.add_nonneg hx.zero_le hy.zero_le) hfits
  have hlowerAll := Int.mul_le_mul_of_nonneg_right hlower (Int.le_of_lt hallpos)
  have hupperAll := Int.mul_le_mul_of_nonneg_right hupper (Int.le_of_lt hallpos)
  have hxl := hx.lower
  have hxu := hx.upper
  have hyl := hy.lower
  have hyu := hy.upper
  refine ⟨hfinite, hnonneg, ?_, ?_⟩ <;> push_cast at * <;> linarith

theorem isFinite_half : half.isFinite := (Binary64.ofInt_exact (k := 50) (by decide)).1

theorem units_half : half.units = 50 * unitsPerOne := (Binary64.ofInt_exact (k := 50) (by decide)).2

/-- The steps of ten shares are less than half of one commit. -/
theorem steps_lt {steps : Nat} (hw : FineStep w) (hall : all ≤ 2 ^ 45) (hsteps : steps ≤ 30) :
    (steps : Int) * (2 ^ 7 * w) * all < 50 * unitsPerOne := by
  have hpos : 0 < w := hw.fine.pos
  have hle : steps * (2 ^ 7 * w) * all ≤ 30 * (2 ^ 7 * w) * 2 ^ 45 :=
    Nat.mul_le_mul (Nat.mul_le_mul_right _ hsteps) hall
  have hlt : steps * (2 ^ 7 * w) * all < 50 * unitsPerOne := by
    rw [hw.one_eq]
    omega
  exact_mod_cast hlt

/-- **More than half of the commits** have a share of at least fifty percent,
however it was added up. -/
theorem IsShare.half_le {x : Binary64} {made steps : Nat} (h : IsShare w all x made steps)
    (hw : FineStep w) (hall : all ≤ 2 ^ 45) (hsteps : steps ≤ 30) (hmost : all < 2 * made) :
    half.le x := by
  have hpos : (0 : Int) < unitsPerOne := Int.natCast_pos.2 unitsPerOne_pos
  have hmore : (50 * all + 50 : Int) * unitsPerOne ≤ 100 * made * unitsPerOne :=
    Int.mul_le_mul_of_nonneg_right (by omega) (Int.le_of_lt hpos)
  rw [Binary64.le_of_isFinite isFinite_half h.finite, decide_eq_true_eq, units_half]
  refine Int.le_of_lt (Int.lt_of_mul_lt_mul_right (a := (all : Int)) ?_ (Int.natCast_nonneg all))
  linarith [h.lower, steps_lt hw hall hsteps]

/-- **Less than half of the commits** have a share below fifty percent. -/
theorem IsShare.not_half_le {x : Binary64} {made steps : Nat} (h : IsShare w all x made steps)
    (hw : FineStep w) (hall : all ≤ 2 ^ 45) (hsteps : steps ≤ 30) (hfew : 2 * made < all) :
    ¬half.le x := by
  have hpos : (0 : Int) < unitsPerOne := Int.natCast_pos.2 unitsPerOne_pos
  have hless : 100 * made * unitsPerOne ≤ (50 * all - 50 : Int) * unitsPerOne :=
    Int.mul_le_mul_of_nonneg_right (by omega) (Int.le_of_lt hpos)
  rw [Binary64.le_of_isFinite isFinite_half h.finite, decide_eq_true_eq, units_half, Int.not_le]
  refine Int.lt_of_mul_lt_mul_right (a := (all : Int)) ?_ (Int.natCast_nonneg all)
  linarith [h.upper, steps_lt hw hall hsteps]

end Contributor
end CodeSurvey
