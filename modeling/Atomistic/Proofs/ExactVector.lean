import Atomistic.Proofs.ExactScalar
import Atomistic.Proofs.Directions
import Mathlib.Tactic.Linarith
import Mathlib.Tactic.Ring

/-!
# Exact vectors

Lengths and products of vectors whose coordinates are exact. A scalar product is no larger than the
product of the lengths.
-/

namespace Atomistic.Vector3

variable {α : Type} [ExactField α]

@[simp] theorem along_add (u v : Vector3 α) (k : Direction) :
    (u + v).along k = u.along k + v.along k :=
  along_zipWith _ u v k

@[simp] theorem along_sub (u v : Vector3 α) (k : Direction) :
    (u - v).along k = u.along k - v.along k :=
  along_zipWith _ u v k

theorem dot_eq (u v : Vector3 α) : u.dot v = u.x * v.x + u.y * v.y + u.z * v.z := rfl

theorem cross_eq (u v : Vector3 α) : u.cross v =
    ⟨u.y * v.z - u.z * v.y, u.z * v.x - u.x * v.z, u.x * v.y - u.y * v.x⟩ := rfl

theorem add_dot (u v w : Vector3 α) : (u + v).dot w = u.dot w + v.dot w := by
  change (u.x + v.x) * w.x + (u.y + v.y) * w.y + (u.z + v.z) * w.z = _
  rw [dot_eq, dot_eq]
  ring

theorem sub_dot (u v w : Vector3 α) : (u - v).dot w = u.dot w - v.dot w := by
  change (u.x - v.x) * w.x + (u.y - v.y) * w.y + (u.z - v.z) * w.z = _
  rw [dot_eq, dot_eq]
  ring

theorem scale_dot (v w : Vector3 α) (s : α) : (v.scale s).dot w = v.dot w * s := by
  change v.x * s * w.x + v.y * s * w.y + v.z * s * w.z = _
  rw [dot_eq]
  ring

theorem norm2_nonneg (v : Vector3 α) : 0 ≤ v.norm2 :=
  add_nonneg (add_nonneg (mul_self_nonneg v.x) (mul_self_nonneg v.y)) (mul_self_nonneg v.z)

theorem norm2_sub (u v : Vector3 α) : (u - v).norm2 = u.norm2 - 2 * u.dot v + v.norm2 := by
  rw [norm2, norm2, norm2, sub_dot, dot_eq, dot_eq, dot_eq, dot_eq, dot_eq]
  change u.x * (u.x - v.x) + u.y * (u.y - v.y) + u.z * (u.z - v.z)
    - (v.x * (u.x - v.x) + v.y * (u.y - v.y) + v.z * (u.z - v.z)) = _
  ring

/-- A vector without length has no coordinates. -/
theorem along_eq_zero {v : Vector3 α} (h : v.norm2 ≤ 0) (k : Direction) : v.along k = 0 := by
  rw [norm2, dot_eq] at h
  have hx := mul_self_nonneg v.x
  have hy := mul_self_nonneg v.y
  have hz := mul_self_nonneg v.z
  refine mul_self_eq_zero.1 ?_
  cases k <;>
  · rw [along]
    linarith

theorem norm_nonneg (v : Vector3 α) : 0 ≤ v.norm := ExactField.squareRoot_nonneg v.norm2

theorem norm_mul_self (v : Vector3 α) : v.norm * v.norm = v.norm2 :=
  ExactField.squareRoot_mul_self v.norm2 v.norm2_nonneg

theorem norm_eq {v : Vector3 α} {c : α} (h : 0 ≤ c) (square : v.norm2 = c * c) : v.norm = c := by
  rw [← mul_self_inj_of_nonneg v.norm_nonneg h, norm_mul_self, square]

/-- Lengths are compared by their squares. -/
theorem norm2_lt_iff {v : Vector3 α} {c : α} (h : 0 ≤ c) : v.norm2 < c * c ↔ v.norm < c := by
  rw [← norm_mul_self]
  exact (mul_self_lt_mul_self_iff v.norm_nonneg h).symm

theorem norm2_le_iff {u v : Vector3 α} : u.norm2 ≤ v.norm2 ↔ u.norm ≤ v.norm := by
  rw [← norm_mul_self, ← norm_mul_self]
  exact (mul_self_le_mul_self_iff u.norm_nonneg v.norm_nonneg).symm

/-- What the scalar product leaves of the product of the lengths is in the vector product. -/
theorem dot_mul_self_add_cross (u v : Vector3 α) :
    u.dot v * u.dot v + (u.cross v).norm2 = u.norm2 * v.norm2 := by
  rw [norm2, norm2, norm2, cross_eq, dot_eq, dot_eq, dot_eq, dot_eq]
  ring

theorem abs_dot_le (u v : Vector3 α) : |u.dot v| ≤ u.norm * v.norm := by
  refine abs_le_of_sq_le_sq ?_ (mul_nonneg u.norm_nonneg v.norm_nonneg)
  have whole := dot_mul_self_add_cross u v
  have rest := (u.cross v).norm2_nonneg
  rw [← u.norm_mul_self, ← v.norm_mul_self] at whole
  linarith [mul_mul_mul_comm u.norm v.norm u.norm v.norm]

end Atomistic.Vector3
