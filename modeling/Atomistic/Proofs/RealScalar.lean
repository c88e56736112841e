import Mathlib.Analysis.SpecialFunctions.Pow.Real
import Mathlib.Analysis.SpecialFunctions.Trigonometric.Basic
import Atomistic.Proofs.ExactScalar

/-!
# Real scalars

The formulas of geometry are exact over the real numbers.
-/

namespace Atomistic

noncomputable instance : ExactField ℝ where
  squareRoot := Real.sqrt
  squareRoot_nonneg := Real.sqrt_nonneg
  squareRoot_mul_self _ h := Real.mul_self_sqrt h
  cubeRoot x := x ^ (3⁻¹ : ℝ)
  cubeRoot_le_one _ positive below := Real.rpow_le_one positive.le below.le (by norm_num)
  halfCircle := Real.pi
  noBound := 0
  sine := Real.sin
  cosine := Real.cos
  shown _ := "a number"

theorem cubeRoot_div {b s total : Nat} (positive : 0 < b) (h : b * s ^ 3 = total) :
    ExactField.cubeRoot ((b : ℝ) / total) = (s : ℝ)⁻¹ := by
  have bound : (b : ℝ) ≠ 0 := Nat.cast_ne_zero.2 positive.ne'
  have cube : (b : ℝ) / total = ((s : ℝ)⁻¹) ^ 3 := by
    rw [← h, Nat.cast_mul, Nat.cast_pow, div_mul_cancel_left₀ bound, inv_pow]
  rw [cube]
  exact Real.pow_rpow_inv_natCast (inv_nonneg.2 s.cast_nonneg) (by norm_num)

end Atomistic
