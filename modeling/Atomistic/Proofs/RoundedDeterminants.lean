import Atomistic.Proofs.RoundedOperations
import Atomistic.Proofs.Directions
import Atomistic.Geometry.Matrix3
import Mathlib.Tactic.NormNum

/-!
# Rounded determinants

The determinant of the transposed matrix is the same number, computed from other products. Rounding
changes the two of them by different amounts, so that one may be zero where the other one is not.
But as long as no entry is above 500 in magnitude, the computed determinants are less than one
millionth away from each other: a determinant that is accepted for a cell belongs to a transposed
matrix that is not taken for a singular one.
-/

namespace Atomistic.Binary64

/-! ### Errors -/

/-- A floating-point number that is close to a rational one. -/
def Within (x : Float) (v r : ℚ) : Prop := ∃ w, StandsFor x w ∧ |w - v| ≤ r

theorem StandsFor.within {x : Float} {v : ℚ} (h : StandsFor x v) : Within x v 0 :=
  ⟨v, h, by rw [sub_self, abs_zero]⟩

theorem Within.mono {x : Float} {v r q : ℚ} (hx : Within x v r) (le : r ≤ q) : Within x v q := by
  obtain ⟨w, stands, near⟩ := hx
  exact ⟨w, stands, near.trans le⟩

section Errors

variable {n : Int} {x y : Float} {a b r q : ℚ}

/-- What the operands are off and what rounding adds to it. -/
theorem within_of_rounded {v w : ℚ} (off : |w - v| ≤ r) (below : |v| + r < 2 ^ n)
    (rounded : |w| < 2 ^ n → ∃ c, StandsFor x c ∧ |c - w| ≤ 2 ^ (n - 53)) :
    Within x v (r + 2 ^ (n - 53)) := by
  have bounded : |w| ≤ |v| + r := by
    calc |w| = |v + (w - v)| := by rw [add_sub_cancel]
      _ ≤ |v| + |w - v| := abs_add_le _ _
      _ ≤ |v| + r := by gcongr
  obtain ⟨c, stands, near⟩ := rounded (lt_of_le_of_lt bounded below)
  refine ⟨c, stands, ?_⟩
  calc |c - v| ≤ |c - w| + |w - v| := abs_sub_le _ _ _
    _ ≤ r + 2 ^ (n - 53) := by linarith

variable (least : -1021 ≤ n) (most : n ≤ 1023)
include least most

theorem Within.add (hx : Within x a r) (hy : Within y b q) (below : |a + b| + (r + q) < 2 ^ n) :
    Within (x + y) (a + b) (r + q + 2 ^ (n - 53)) := by
  obtain ⟨v, hv, near⟩ := hx
  obtain ⟨w, hw, near'⟩ := hy
  have off : |v + w - (a + b)| ≤ r + q := by
    rw [add_sub_add_comm]
    exact (abs_add_le _ _).trans (add_le_add near near')
  exact within_of_rounded off below (exists_add_standsFor least most hv hw)

theorem Within.sub (hx : Within x a r) (hy : Within y b q) (below : |a - b| + (r + q) < 2 ^ n) :
    Within (x - y) (a - b) (r + q + 2 ^ (n - 53)) := by
  obtain ⟨v, hv, near⟩ := hx
  obtain ⟨w, hw, near'⟩ := hy
  have off : |v - w - (a - b)| ≤ r + q := by
    rw [sub_sub_sub_comm]
    exact (abs_sub _ _).trans (add_le_add near near')
  exact within_of_rounded off below (exists_sub_standsFor least most hv hw)

/-- A product with what is not off itself. -/
theorem StandsFor.mul (hx : StandsFor x a) (hy : Within y b q)
    (below : |a * b| + |a| * q < 2 ^ n) : Within (x * y) (a * b) (|a| * q + 2 ^ (n - 53)) := by
  obtain ⟨w, hw, near⟩ := hy
  have off : |a * w - a * b| ≤ |a| * q := by
    rw [← mul_sub, abs_mul]
    gcongr
  exact within_of_rounded off below (exists_mul_standsFor least most hx hw)

end Errors

/-! ### Determinants -/

/-- A number that is not above 500 in magnitude. -/
structure Moderate (x : Float) (a : ℚ) : Prop where
  stands : StandsFor x a
  le : |a| ≤ 500

section Moderate

variable {x y z w : Float} {a b c d : ℚ}

theorem Moderate.product (hx : Moderate x a) (hy : Moderate y b) :
    Within (x * y) (a * b) (1 / 2 ^ 35) ∧ |a * b| ≤ 250000 := by
  have bounded : |a * b| ≤ 250000 := by
    rw [abs_mul]
    exact (mul_le_mul hx.le hy.le (abs_nonneg b) (by norm_num)).trans (by norm_num)
  refine ⟨(hx.stands.mul (n := 18) (by decide) (by decide) hy.stands.within ?_).mono ?_, bounded⟩
  · rw [mul_zero, add_zero]
    exact lt_of_le_of_lt bounded (by norm_num)
  · rw [mul_zero]
    norm_num

/-- The determinant of a two by two matrix. -/
theorem Moderate.minor (hx : Moderate x a) (hy : Moderate y b) (hz : Moderate z c)
    (hw : Moderate w d) :
    Within (x * y - z * w) (a * b - c * d) (1 / 2 ^ 33) ∧ |a * b - c * d| ≤ 500000 := by
  obtain ⟨left, small⟩ := hx.product hy
  obtain ⟨right, small'⟩ := hz.product hw
  have bounded : |a * b - c * d| ≤ 500000 := by
    linarith [abs_sub (a * b) (c * d)]
  refine ⟨(left.sub (n := 19) (by decide) (by decide) right ?_).mono ?_, bounded⟩
  · refine lt_of_le_of_lt (add_le_add_left bounded _) ?_
    norm_num
  · norm_num

/-- An entry times the determinant of a two by two matrix. -/
theorem Moderate.term (hx : Moderate x a) (hy : Within y b (1 / 2 ^ 33) ∧ |b| ≤ 500000) :
    Within (x * y) (a * b) (3 / 2 ^ 25) ∧ |a * b| ≤ 250000000 := by
  obtain ⟨near, small⟩ := hy
  have bounded : |a * b| ≤ 250000000 := by
    rw [abs_mul]
    exact (mul_le_mul hx.le small (abs_nonneg b) (by norm_num)).trans (by norm_num)
  have off : |a| * (1 / 2 ^ 33) ≤ 500 / 2 ^ 33 := by linarith [hx.le]
  refine ⟨(hx.stands.mul (n := 28) (by decide) (by decide) near ?_).mono ?_, bounded⟩
  · refine lt_of_le_of_lt (add_le_add bounded off) ?_
    norm_num
  · refine (add_le_add_left off _).trans ?_
    norm_num

end Moderate

/-- The determinant of rational numbers. -/
def expansion (a : Vector3 (Vector3 ℚ)) : ℚ :=
  a.x.x * (a.y.y * a.z.z - a.z.y * a.y.z) - a.x.y * (a.y.x * a.z.z - a.y.z * a.z.x)
    + a.x.z * (a.y.x * a.z.y - a.y.y * a.z.x)

theorem expansion_transposed (a : Vector3 (Vector3 ℚ)) :
    expansion (Matrix3.transposed a) = expansion a := by
  rw [expansion, expansion, Matrix3.transposed]
  ring

/-- A matrix whose entries are numbers that are not above 500 in magnitude. -/
def ModerateEntries (m : Matrix3 Float) (a : Vector3 (Vector3 ℚ)) : Prop :=
  ∀ j k, Moderate ((m.along j).along k) ((a.along j).along k)

namespace ModerateEntries

variable {m : Matrix3 Float} {a : Vector3 (Vector3 ℚ)} (h : ModerateEntries m a)
include h

theorem transposed : ModerateEntries m.transposed (Matrix3.transposed a) := by
  intro j k
  have entry := h k j
  cases j <;> cases k <;> exact entry

/-- The computed determinant is close to that of the numbers that the entries stand for. -/
theorem within_determinant : Within m.determinant (expansion a) (15 / 2 ^ 25) := by
  obtain ⟨first, small₁⟩ := (h .x .x).term ((h .y .y).minor (h .z .z) (h .z .y) (h .y .z))
  obtain ⟨second, small₂⟩ := (h .x .y).term ((h .y .x).minor (h .z .z) (h .y .z) (h .z .x))
  obtain ⟨third, small₃⟩ := (h .x .z).term ((h .y .x).minor (h .z .y) (h .y .y) (h .z .x))
  have small := (abs_sub _ _).trans (add_le_add small₁ small₂)
  have difference := first.sub (n := 29) (by decide) (by decide) second
    (lt_of_le_of_lt (add_le_add_left small _) (by norm_num))
  have small' := (abs_add_le _ _).trans (add_le_add small small₃)
  have sum := difference.add (n := 30) (by decide) (by decide) third
    (lt_of_le_of_lt (add_le_add_left small' _) (by norm_num))
  exact sum.mono (by norm_num)

end ModerateEntries

/-! ### Thresholds -/

theorem standsFor_positive {x : Float} {m : Nat} {e : Int} (stored : Stored m e)
    (unpacked : x.toModel.unpack = .finite .positive m e stored.pos) :
    StandsFor x (m * 2 ^ e) := by
  have valued := Valued.finite .positive stored
  rw [apply_positive] at valued
  rw [StandsFor, unpacked]
  exact valued

theorem standsFor_decimal :
    StandsFor (Scalar.decimal 1 6) ((4722366482869645 : Nat) * 2 ^ (-72 : Int)) :=
  standsFor_positive ⟨by decide, by decide, by decide, by decide, by decide⟩ rfl

theorem standsFor_epsilon :
    StandsFor Scalar.epsilon ((4503599627370496 : Nat) * 2 ^ (-104 : Int)) :=
  standsFor_positive ⟨by decide, by decide, by decide, by decide, by decide⟩ rfl

theorem standsFor_ofNat :
    StandsFor (Scalar.ofNat 500) ((8796093022208000 : Nat) * 2 ^ (-44 : Int)) :=
  standsFor_positive ⟨by decide, by decide, by decide, by decide, by decide⟩ rfl

/-- Numbers that are not above 500 in magnitude. -/
theorem exists_moderateEntries {m : Matrix3 Float}
    (h : ∀ x ∈ m.toList, Scalar.le (Scalar.abs x) (Scalar.ofNat 500) = true) :
    ∃ a, ModerateEntries m a := by
  have entry (j k : Direction) : ∃ a, Moderate ((m.along j).along k) a := by
    have mem : (m.along j).along k ∈ m.toList := by
      cases j <;> cases k <;> simp [Matrix3.toList, Vector3.toList, Vector3.along]
    obtain ⟨a, stands, le⟩ := exists_standsFor_of_le standsFor_ofNat (h _ mem)
    exact ⟨a, stands, le.trans (by norm_num)⟩
  choose a moderate using entry
  refine ⟨.ofDirections fun j => .ofDirections (a j), fun j k => ?_⟩
  rw [Vector3.along_ofDirections, Vector3.along_ofDirections]
  exact moderate j k

/-- Of numbers that are not above 500 in magnitude, a determinant above one millionth is not lost by
computing that of the transposed matrix. -/
theorem lt_abs_determinant_transposed {m : Matrix3 Float}
    (h : ∀ x ∈ m.toList, Scalar.le (Scalar.abs x) (Scalar.ofNat 500) = true)
    (large : Scalar.le m.determinant (Scalar.decimal 1 6) = false) :
    Scalar.lt Scalar.epsilon (Scalar.abs m.transposed.determinant) = true := by
  obtain ⟨a, entries⟩ := exists_moderateEntries h
  obtain ⟨d, stands, near⟩ := entries.within_determinant
  obtain ⟨d', stands', near'⟩ := entries.transposed.within_determinant
  rw [expansion_transposed] at near'
  have above : ((4722366482869645 : Nat) : ℚ) * 2 ^ (-72 : Int) < d := by
    rw [← not_le, ← le_iff_of_standsFor stands standsFor_decimal, large]
    exact Bool.false_ne_true
  have apart : d - 30 / 2 ^ 25 ≤ d' := by
    rw [abs_le] at near near'
    linarith [near.2, near'.1]
  refine (lt_iff_of_standsFor standsFor_epsilon (standsFor_abs stands')).2 ?_
  refine lt_of_lt_of_le ?_ ((sub_le_sub_right above.le _).trans (apart.trans (le_abs_self d')))
  norm_num

end Atomistic.Binary64
