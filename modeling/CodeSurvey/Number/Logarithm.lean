/-
# The natural logarithm of a positive integer

`ln n = k ln 2 + ln (n / 2ᵏ)` where `2ᵏ ≤ n < 2ᵏ⁺¹`, and both logarithms on the right are values of
`ln t = 2 (z + z³/3 + z⁵/5 + …)` with `z = (t - 1) / (t + 1)`, which is at most 1/3 for `1 ≤ t ≤ 2`.
All of it is computed in fixed point with 160 fractional bits; fifty terms of the series reach them.
Only the result is rounded to binary64.
-/

import CodeSurvey.Number.Binary64

namespace CodeSurvey
namespace Binary64

/-- The fractional bits of the fixed-point numbers below. -/
def logBits : Nat := 160

/-- Twice the area tangent of `num / den`, at most one third, in fixed point. -/
def twiceArtanh (num den : Nat) : Nat :=
  let z := num * Nat.pow 2 logBits / den
  let z2 := z * z / Nat.pow 2 logBits
  let (series, _) := (List.range 52).foldl
    (fun (acc : Nat × Nat) i =>
      (acc.1 + acc.2 / (2 * i + 1), acc.2 * z2 / Nat.pow 2 logBits)) (0, z)
  2 * series

/-- The natural logarithm of an integer, zero for integers below one. -/
def logOf (n : Nat) : Binary64 :=
  let k := n.log2
  let power := Nat.pow 2 k
  let logarithm := k * twiceArtanh 1 3 + twiceArtanh (n - power) (n + power)
  round false (logarithm * unitsPerOne) (Nat.pow 2 logBits)

end Binary64
end CodeSurvey
