import Atomistic.Proofs.Lattice
import Atomistic.Proofs.ReducedVectors

/-!
# Inverse matrices

The transposed cofactors of a matrix, times a scalar, multiply it to its determinant times this
scalar, from both sides. So whatever matrix is inverted has the result as its inverse from both
sides, and there is no other one. The two transformations of a cell are such inverses of each other:
a vector is told by its coordinates along the cell vectors, and all coordinates are those of a
vector.
-/

namespace Atomistic

variable {α : Type} [ExactField α]

namespace Matrix3

/-! ### Products -/

theorem mulVector_along (m : Matrix3 α) (v : Vector3 α) (k : Direction) :
    (m.mulVector v).along k = (m.along k).dot v := by
  rw [mulVector, Vector3.along_map]

theorem mul_along (m n : Matrix3 α) (j k : Direction) :
    ((m.mul n).along j).along k = (m.along j).dot (n.transposed.along k) := by
  rw [mul, Vector3.along_map, Vector3.along_map]

theorem mul_assoc (m n p : Matrix3 α) : (m.mul n).mul p = m.mul (n.mul p) := by
  refine Vector3.ext_along fun j => Vector3.ext_along fun k => ?_
  rw [mul_along, mul_along]
  simp only [Vector3.dot_eq, mul, transposed, Vector3.along_map]
  cases k <;>
  · simp only [Vector3.along, Vector3.map, Vector3.dot_eq]
    ring

theorem mul_mulVector (m n : Matrix3 α) (v : Vector3 α) :
    (m.mul n).mulVector v = m.mulVector (n.mulVector v) := by
  refine Vector3.ext_along fun j => ?_
  have row : (m.mul n).along j = n.transposed.map (m.along j).dot := by rw [mul, Vector3.along_map]
  rw [mulVector_along, mulVector_along, row]
  simp only [transposed, mulVector, Vector3.map, Vector3.dot_eq]
  ring

/-- A matrix with equal entries on the diagonal and none outside of it multiplies by them. -/
theorem ofDiagonal_mulVector (s : α) (v : Vector3 α) :
    (ofDiagonal (Vector3.replicate s)).mulVector v = v.scale s := by
  refine Vector3.ext_along fun k => ?_
  rw [mulVector_along, Vector3.scale, Vector3.along_map]
  cases k <;>
  · simp only [ofDiagonal, Vector3.replicate, Vector3.along, Vector3.dot_eq, ExactField.zero_eq]
    ring

theorem one_mulVector (v : Vector3 α) : (one : Matrix3 α).mulVector v = v := by
  rw [one, ofDiagonal_mulVector]
  refine Vector3.ext_along fun k => ?_
  rw [Vector3.scale, Vector3.along_map, ExactField.one_eq, mul_one]

theorem one_mul (m : Matrix3 α) : (one : Matrix3 α).mul m = m := by
  refine Vector3.ext_along fun j => Vector3.ext_along fun k => ?_
  rw [mul_along]
  cases j <;> cases k <;>
    simp [one, ofDiagonal, transposed, Vector3.replicate, Vector3.along, Vector3.dot_eq]

theorem mul_one (m : Matrix3 α) : m.mul one = m := by
  refine Vector3.ext_along fun j => Vector3.ext_along fun k => ?_
  rw [mul_along]
  cases j <;> cases k <;>
    simp [one, ofDiagonal, transposed, Vector3.replicate, Vector3.along, Vector3.dot_eq]

/-! ### Inverses -/

/-- Each of two matrices undoes the other one. -/
structure Inverses (m n : Matrix3 α) : Prop where
  right : m.mul n = one
  left : n.mul m = one

namespace Inverses

variable {m n : Matrix3 α} (h : m.Inverses n)
include h

theorem mulVector_mulVector (v : Vector3 α) : m.mulVector (n.mulVector v) = v := by
  rw [← mul_mulVector, h.right, one_mulVector]

theorem symm : n.Inverses m := ⟨h.left, h.right⟩

theorem unique {p : Matrix3 α} (h' : m.Inverses p) : n = p := by
  rw [← n.mul_one, ← h'.right, ← mul_assoc, h.left, one_mul]

end Inverses

/-- A row times a column of cofactors is the determinant when they belong together, and nothing
otherwise. -/
theorem mul_adjugateTimes (m : Matrix3 α) (s : α) :
    m.mul (m.adjugateTimes s) = ofDiagonal (Vector3.replicate (m.determinant * s)) := by
  refine Vector3.ext_along fun j => Vector3.ext_along fun k => ?_
  rw [mul_along]
  cases j <;> cases k <;>
  · simp only [adjugateTimes, transposed, ofDiagonal, Vector3.replicate, Vector3.along,
      Vector3.dot_eq, UnitCell.determinant_eq, ExactField.zero_eq]
    ring

theorem adjugateTimes_mul (m : Matrix3 α) (s : α) :
    (m.adjugateTimes s).mul m = ofDiagonal (Vector3.replicate (m.determinant * s)) := by
  refine Vector3.ext_along fun j => Vector3.ext_along fun k => ?_
  rw [mul_along]
  cases j <;> cases k <;>
  · simp only [adjugateTimes, transposed, ofDiagonal, Vector3.replicate, Vector3.along,
      Vector3.dot_eq, UnitCell.determinant_eq, ExactField.zero_eq]
    ring

theorem inverses_adjugateTimes {m : Matrix3 α} (regular : m.determinant ≠ 0) :
    m.Inverses (m.adjugateTimes (1 / m.determinant)) := by
  have unit : ofDiagonal (Vector3.replicate (m.determinant * (1 / m.determinant)))
      = (one : Matrix3 α) := by
    rw [mul_one_div_cancel regular, one, ExactField.one_eq]
  exact ⟨(m.mul_adjugateTimes _).trans unit, (m.adjugateTimes_mul _).trans unit⟩

theorem epsilon_pos : (0 : α) < Scalar.epsilon := by
  rw [Scalar.epsilon, ExactField.one_eq]
  change 0 < 1 / ((0x10000000000000 : Int) : α)
  positivity

/-- A matrix is inverted when its determinant is not close to zero. -/
theorem inverse_cases (m : Matrix3 α) :
    Scalar.epsilon < |m.determinant| ∧
        m.inverse = .ok (m.adjugateTimes (1 / m.determinant)) ∨
      |m.determinant| ≤ Scalar.epsilon ∧ m.inverse = .error (.panic .singularMatrix) := by
  unfold inverse
  dsimp only
  split
  · next regular =>
    rw [ExactField.lt_eq_true] at regular
    exact .inl ⟨regular, by rw [ExactField.one_eq]⟩
  · next singular =>
    rw [ExactField.lt_eq_true, not_lt] at singular
    exact .inr ⟨singular, rfl⟩

/-- What is computed as an inverse is the one that there is. -/
theorem inverse_eq_ok_iff {m n : Matrix3 α} (regular : Scalar.epsilon < |m.determinant|) :
    m.inverse = .ok n ↔ m.Inverses n := by
  have found := inverses_adjugateTimes (abs_pos.1 (epsilon_pos.trans regular))
  rcases m.inverse_cases with ⟨-, computed⟩ | ⟨singular, -⟩
  · rw [computed, Except.ok.injEq]
    constructor
    · rintro rfl
      exact found
    · exact found.unique
  · exact absurd singular regular.not_ge

/-- A matrix is inverted exactly when its determinant is not close to zero. -/
theorem exists_inverse_iff {m : Matrix3 α} :
    (∃ n, m.inverse = .ok n) ↔ Scalar.epsilon < |m.determinant| := by
  rcases m.inverse_cases with ⟨regular, computed⟩ | ⟨singular, refused⟩
  · simp [computed, regular]
  · simp [refused, singular.not_gt]

end Matrix3

namespace UnitCell

variable {cell : UnitCell α}

/-- The transformations of a periodic cell undo each other. -/
theorem inverses_of_built (built : cell.Built) (periodic : cell.shape ≠ .infinite) :
    cell.toCartesian.Inverses cell.toFractional := by
  have h := built.general periodic
  have cartesian_eq : cell.toCartesian = cell.matrix.transposed := h.cartesian_eq
  have fractional_eq : cell.toFractional
      = cell.matrix.transposed.adjugateTimes (1 / cell.matrix.determinant) := h.fractional_eq
  have regular : cell.matrix.transposed.determinant ≠ 0 := by
    rw [determinant_transposed]
    exact h.positive.ne'
  rw [cartesian_eq, fractional_eq, ← determinant_transposed]
  exact Matrix3.inverses_adjugateTimes regular

/-- Points of space and coordinates along the cell vectors determine each other, and whole
coordinates are whole numbers of the cell vectors. -/
structure Coordinates (cell : UnitCell α) : Prop where
  cartesian_fractional : ∀ v, cell.cartesian (cell.fractional v) = v
  fractional_cartesian : ∀ c, cell.fractional (cell.cartesian c) = c
  whole : ∀ n : Vector3 Int, cell.cartesian (n.map Scalar.ofInt)
    = cell.matrix.x.scale n.x + cell.matrix.y.scale n.y + cell.matrix.z.scale n.z

/-- A periodic cell has coordinates, and a matrix whose determinant is not close to zero has the
inverse that is computed for it, from both sides. -/
theorem coordinates_of_built (built : cell.Built) (periodic : cell.shape ≠ .infinite) :
    cell.Coordinates ∧ ∀ m : Matrix3 α,
      ((∃ n, m.inverse = .ok n) ↔ Scalar.epsilon < |m.determinant|) ∧
      ∀ n, m.inverse = .ok n → m.mul n = .one ∧ n.mul m = .one := by
  have inverses := inverses_of_built built periodic
  constructor
  · exact ⟨inverses.mulVector_mulVector, inverses.symm.mulVector_mulVector,
      (built.general periodic).cartesian_ofInt⟩
  · intro m
    refine ⟨Matrix3.exists_inverse_iff, fun n computed => ?_⟩
    have regular := Matrix3.exists_inverse_iff.1 ⟨n, computed⟩
    obtain ⟨right, left⟩ := (Matrix3.inverse_eq_ok_iff regular).1 computed
    exact ⟨right, left⟩

/-- Vectors none of which is along an axis or in a plane of two axes. -/
noncomputable def skewed : Matrix3 ℝ :=
  ⟨⟨(2 : Nat), 1, (4 : Nat)⟩, ⟨-1, (3 : Nat), 1⟩, ⟨1, -1, (2 : Nat)⟩⟩

theorem determinant_skewed : skewed.determinant = 9 := by
  rw [determinant_eq, skewed]
  norm_num

/-- A cell may be skewed in all directions. -/
theorem coordinates_of_skewed : ∃ cell : UnitCell ℝ, ofMatrix skewed = .ok cell ∧ cell.Built ∧
    cell.shape ≠ .infinite ∧ cell.Coordinates := by
  have entry : (1 : ℝ) ∈ skewed.offDiagonal := List.mem_cons_self
  have visible : (1 : ℝ) / 10 ^ 6 ≤ |1| := by norm_num
  have large : (1 : ℝ) / 10 ^ 6 < skewed.determinant := by
    rw [determinant_skewed]
    norm_num
  obtain ⟨cell, made, shape, -⟩ := ofMatrix_triclinic entry visible large
  have periodic : cell.shape ≠ .infinite := by
    rw [shape]
    nofun
  exact ⟨cell, made, .ofMatrix made, periodic, (coordinates_of_built (.ofMatrix made) periodic).1⟩

end UnitCell

end Atomistic
