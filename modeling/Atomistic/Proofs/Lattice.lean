import Atomistic.Proofs.ExactVector
import Atomistic.Geometry.UnitCell
import Mathlib.Tactic.FieldSimp

/-!
# Lattices

A periodic cell stands for the lattice of the translations by whole numbers of its vectors. Whichever
way it was made, coordinates along the cell vectors are scalar products with the normals of its
faces, over the volume. So a vector shorter than some cutoff changes a coordinate by less than the
cutoff over the distance between the faces, however skewed the cell is.
-/

namespace Atomistic

/-! ### Combinations of rows -/

namespace Matrix3

variable {α : Type} [ExactField α]

/-- The vector with the given coordinates along the rows of a matrix. -/
def combine (m : Matrix3 α) (c : Vector3 α) : Vector3 α :=
  m.x.scale c.x + m.y.scale c.y + m.z.scale c.z

theorem combine_along (m : Matrix3 α) (c : Vector3 α) (k : Direction) :
    (m.combine c).along k = m.x.along k * c.x + m.y.along k * c.y + m.z.along k * c.z := by
  cases k <;> rfl

theorem combine_add (m : Matrix3 α) (c d : Vector3 α) :
    m.combine (c + d) = m.combine c + m.combine d := by
  refine Vector3.ext_along fun k => ?_
  rw [Vector3.along_add, combine_along, combine_along, combine_along]
  change m.x.along k * (c.x + d.x) + m.y.along k * (c.y + d.y) + m.z.along k * (c.z + d.z) = _
  ring

theorem combine_sub (m : Matrix3 α) (c d : Vector3 α) :
    m.combine (c - d) = m.combine c - m.combine d := by
  refine Vector3.ext_along fun k => ?_
  rw [Vector3.along_sub, combine_along, combine_along, combine_along]
  change m.x.along k * (c.x - d.x) + m.y.along k * (c.y - d.y) + m.z.along k * (c.z - d.z) = _
  ring

theorem combine_ofDiagonal (lengths c : Vector3 α) (k : Direction) :
    ((ofDiagonal lengths).combine c).along k = lengths.along k * c.along k := by
  rw [combine_along]
  cases k <;>
  · simp only [ofDiagonal, Vector3.along, ExactField.zero_eq]
    ring

theorem ofDiagonal_diagonal {m : Matrix3 α} (h : ∀ x ∈ m.offDiagonal, x = 0) :
    ofDiagonal m.diagonal = m := by
  simp only [offDiagonal, List.forall_mem_cons] at h
  obtain ⟨hxy, hxz, hyx, hyz, hzx, hzy, -⟩ := h
  refine Vector3.ext_along fun j => Vector3.ext_along fun k => ?_
  cases j <;> cases k <;> simp [ofDiagonal, diagonal, Vector3.along, *]

end Matrix3

namespace UnitCell

/-! ### Cells and translations -/

/-- The ways in which cells are made. -/
inductive Built {α : Type} [Scalar α] : UnitCell α → Prop where
  | infinite : Built infinite
  | cubic {length : α} {cell : UnitCell α} : cubic length = .ok cell → Built cell
  | orthorhombic {lengths : Vector3 α} {cell : UnitCell α} :
    orthorhombic lengths = .ok cell → Built cell
  | ofMatrix {matrix : Matrix3 α} {cell : UnitCell α} : ofMatrix matrix = .ok cell → Built cell
  | triclinic {lengths angles : Vector3 α} {cell : UnitCell α} :
    triclinic lengths angles = .ok cell → Built cell

variable {α : Type} [ExactField α] {cell : UnitCell α}

/-- The translation by some numbers of cell vectors. -/
def translation (cell : UnitCell α) (n : Vector3 Int) : Vector3 α :=
  cell.matrix.x.scale n.x + cell.matrix.y.scale n.y + cell.matrix.z.scale n.z

/-- The translations that take a periodic system to itself. -/
def IsTranslation (cell : UnitCell α) (t : Vector3 α) : Prop := ∃ n, t = cell.translation n

/-- The vector across the faces that the other two cell vectors span. -/
def normal (cell : UnitCell α) : Direction → Vector3 α
  | .x => cell.matrix.y.cross cell.matrix.z
  | .y => cell.matrix.z.cross cell.matrix.x
  | .z => cell.matrix.x.cross cell.matrix.y

/-- A periodic cell whose vectors, transformations and volume belong together. -/
structure Lattice (cell : UnitCell α) : Prop where
  periodic : cell.shape ≠ .infinite
  positive : 0 < cell.matrix.determinant
  volume_eq : cell.volume = cell.matrix.determinant
  cartesian_eq : cell.toCartesian = cell.matrix.transposed
  fractional_eq : cell.toFractional
    = cell.matrix.transposed.adjugateTimes (1 / cell.matrix.determinant)

theorem translation_eq (cell : UnitCell α) (n : Vector3 Int) :
    cell.translation n = cell.matrix.combine (n.map Int.cast) := rfl

theorem translation_along (cell : UnitCell α) (n : Vector3 Int) (k : Direction) :
    (cell.translation n).along k = cell.matrix.x.along k * n.x + cell.matrix.y.along k * n.y
      + cell.matrix.z.along k * n.z := by
  cases k <;> rfl

/-! ### Cells are lattices -/

theorem determinant_eq (m : Matrix3 α) : m.determinant =
    m.x.x * (m.y.y * m.z.z - m.z.y * m.y.z) - m.x.y * (m.y.x * m.z.z - m.y.z * m.z.x)
      + m.x.z * (m.y.x * m.z.y - m.y.y * m.z.x) := rfl

theorem determinant_transposed (m : Matrix3 α) : m.transposed.determinant = m.determinant := by
  rw [determinant_eq, determinant_eq, Matrix3.transposed]
  ring

theorem determinant_ofDiagonal (v : Vector3 α) :
    (Matrix3.ofDiagonal v).determinant = v.x * v.y * v.z := by
  rw [determinant_eq, Matrix3.ofDiagonal]
  simp only [ExactField.zero_eq]
  ring

/-- The cell with vectors of the given lengths along the axes. -/
def box (lengths : Vector3 α) : UnitCell α :=
  ⟨Matrix3.ofDiagonal lengths, Matrix3.ofDiagonal lengths,
    Matrix3.ofDiagonal (lengths.map (Scalar.one / ·)), .orthorhombic⟩

theorem orthorhombic_eq_ok {lengths : Vector3 α} :
    orthorhombic lengths = .ok cell ↔ (∀ k, 0 < lengths.along k) ∧ cell = box lengths := by
  have accepted : lengths.all isLength = true ↔ ∀ k, 0 < lengths.along k := by
    rw [Vector3.all_eq_true]
    simp [isLength]
  rw [orthorhombic, ← accepted]
  split
  · next h => simp [h, box, eq_comm]
  · next h => simp [h]

theorem lattice_box {lengths : Vector3 α} (positive : ∀ k, 0 < lengths.along k) :
    (box lengths).Lattice := by
  have hx : 0 < lengths.x := positive .x
  have hy : 0 < lengths.y := positive .y
  have hz : 0 < lengths.z := positive .z
  have determinant : (box lengths).matrix.determinant = lengths.x * lengths.y * lengths.z :=
    determinant_ofDiagonal lengths
  have transposed : (box lengths).matrix.transposed = Matrix3.ofDiagonal lengths := rfl
  refine ⟨nofun, ?_, determinant.symm, rfl, ?_⟩
  · rw [determinant]
    exact mul_pos (mul_pos hx hy) hz
  · rw [transposed, determinant]
    simp only [box, Matrix3.ofDiagonal, Matrix3.adjugateTimes, Vector3.map, Vector3.mk.injEq,
      ExactField.zero_eq, ExactField.one_eq]
    refine ⟨⟨?_, ?_, ?_⟩, ⟨?_, ?_, ?_⟩, ⟨?_, ?_, ?_⟩⟩ <;> field_simp <;> ring

/-- The entries of a cell with vectors along the axes that are not zero are on the diagonal. -/
theorem determinant_of_offDiagonal {m : Matrix3 α} (h : ∀ x ∈ m.offDiagonal, x = 0) :
    m.determinant = m.x.x * m.y.y * m.z.z := by
  simp only [Matrix3.offDiagonal, List.forall_mem_cons] at h
  obtain ⟨hxy, hxz, hyx, hyz, hzx, hzy, -⟩ := h
  rw [determinant_eq, hxy, hxz, hyx, hyz, hzx, hzy]
  ring

theorem inverse_eq_ok {m inverse : Matrix3 α} (h : m.inverse = .ok inverse) :
    inverse = m.adjugateTimes (1 / m.determinant) := by
  unfold Matrix3.inverse at h
  dsimp only at h
  split at h
  · cases h
    rw [ExactField.one_eq]
  · cases h

theorem epsilon_lt : (Scalar.epsilon : α) < 1 / 10 ^ 6 := by
  rw [Scalar.epsilon, ExactField.one_eq]
  change 1 / ((0x10000000000000 : Int) : α) < _
  norm_num

/-- A matrix with a large determinant and an entry that can be told from zero makes a cell. -/
theorem ofMatrix_eq_ok {m : Matrix3 α} {x : α} (hx : x ∈ m.toList) (visible : 1 / 10 ^ 12 ≤ |x|)
    (large : 1 / 10 ^ 6 < m.determinant) : ofMatrix m = .ok ⟨m, m.transposed,
      m.transposed.adjugateTimes (1 / m.determinant),
      if m.offDiagonal.all (isBelow 6) then .orthorhombic else .triclinic⟩ := by
  have some : ¬ m.toList.all (isBelow 12) = true := by
    rw [List.all_eq_true]
    intro none
    have below := none x hx
    rw [isBelow, ExactField.lt_eq_true, ExactField.decimal_one] at below
    exact absurd below (not_lt.2 visible)
  have accepted : ¬ Scalar.le m.determinant (Scalar.decimal 1 6) = true := by
    rw [ExactField.le_eq_true, ExactField.decimal_one, not_le]
    exact large
  have regular : Scalar.lt Scalar.epsilon (Scalar.abs m.determinant) = true := by
    rw [ExactField.lt_eq_true]
    exact (epsilon_lt.trans large).trans_le (le_abs_self _)
  unfold ofMatrix
  rw [if_neg some]
  dsimp only
  rw [if_neg accepted, Matrix3.inverse, determinant_transposed, if_pos regular, ExactField.one_eq]
  rfl

/-- The same cell taken as one of no special shape. -/
def general (cell : UnitCell α) : UnitCell α := { cell with shape := .triclinic }

theorem general_of_ofMatrix {m : Matrix3 α} (h : ofMatrix m = .ok cell)
    (periodic : cell.shape ≠ .infinite) : cell.general.Lattice := by
  unfold ofMatrix at h
  split at h
  · cases h
    exact absurd rfl periodic
  dsimp only at h
  split at h
  · cases h
  · next large =>
    rw [ExactField.le_eq_true, not_le] at large
    have positive : 0 < m.determinant := (ExactField.decimal_pos (by omega) 6).trans large
    cases hinverse : m.transposed.inverse with
    | error e =>
      rw [hinverse] at h
      cases h
    | ok inverse =>
      rw [hinverse] at h
      cases h
      have fractional_eq := inverse_eq_ok hinverse
      rw [determinant_transposed] at fractional_eq
      exact ⟨nofun, positive, rfl, rfl, fractional_eq⟩

theorem general_box {lengths : Vector3 α} (positive : ∀ k, 0 < lengths.along k) :
    (box lengths).general.Lattice :=
  { lattice_box positive with
    periodic := nofun
    volume_eq := rfl }

/-- Every periodic cell is a lattice, apart from what its shape makes of its volume. -/
theorem Built.general (built : cell.Built) (periodic : cell.shape ≠ .infinite) :
    cell.general.Lattice := by
  cases built with
  | infinite => exact absurd rfl periodic
  | cubic h =>
    obtain ⟨positive, rfl⟩ := orthorhombic_eq_ok.1 h
    exact general_box positive
  | orthorhombic h =>
    obtain ⟨positive, rfl⟩ := orthorhombic_eq_ok.1 h
    exact general_box positive
  | ofMatrix h => exact general_of_ofMatrix h periodic
  | triclinic h =>
    unfold UnitCell.triclinic at h
    split at h
    · split at h
      · next made =>
        cases h
        exact general_of_ofMatrix made periodic
      · cases h
      · cases h
    · cases h

/-- Every periodic cell is a lattice, if those that count as aligned with the axes are. -/
theorem Built.lattice (built : cell.Built) (periodic : cell.shape ≠ .infinite)
    (aligned : cell.shape = .orthorhombic → ∀ x ∈ cell.matrix.offDiagonal, x = 0) :
    cell.Lattice :=
  { built.general periodic with
    periodic := periodic
    volume_eq := by
      rw [volume]
      split
      · next shape => exact absurd shape periodic
      · next shape => exact (determinant_of_offDiagonal (aligned shape)).symm
      · rfl }

/-! ### Coordinates -/

namespace Lattice

variable (h : cell.Lattice)
include h

theorem fractional_along (v : Vector3 α) (k : Direction) :
    (cell.fractional v).along k = v.dot (cell.normal k) / cell.matrix.determinant := by
  rw [fractional, h.fractional_eq]
  cases k <;>
  · simp only [Matrix3.mulVector, Vector3.along, Vector3.map, Matrix3.adjugateTimes,
      Matrix3.transposed, normal, Vector3.dot_eq, Vector3.cross_eq]
    ring

theorem fractional_add (u v : Vector3 α) (k : Direction) :
    (cell.fractional (u + v)).along k
      = (cell.fractional u).along k + (cell.fractional v).along k := by
  rw [h.fractional_along, h.fractional_along, h.fractional_along, Vector3.add_dot, add_div]

theorem fractional_sub (u v : Vector3 α) (k : Direction) :
    (cell.fractional (u - v)).along k
      = (cell.fractional u).along k - (cell.fractional v).along k := by
  rw [h.fractional_along, h.fractional_along, h.fractional_along, Vector3.sub_dot, sub_div]

theorem fractional_scale (v : Vector3 α) (s : α) (k : Direction) :
    (cell.fractional (v.scale s)).along k = (cell.fractional v).along k * s := by
  rw [h.fractional_along, h.fractional_along, Vector3.scale_dot, mul_div_right_comm]

/-- The coordinates of a translation are the numbers of cell vectors. -/
theorem fractional_translation (n : Vector3 Int) (k : Direction) :
    (cell.fractional (cell.translation n)).along k = n.along k := by
  rw [h.fractional_along, translation, Vector3.add_dot, Vector3.add_dot, Vector3.scale_dot,
    Vector3.scale_dot, Vector3.scale_dot, div_eq_iff h.positive.ne']
  cases k <;>
  · simp only [normal, Vector3.along, Vector3.dot_eq, Vector3.cross_eq, determinant_eq]
    ring

theorem fractional_add_translation (v : Vector3 α) (n : Vector3 Int) (k : Direction) :
    (cell.fractional (v + cell.translation n)).along k
      = (cell.fractional v).along k + n.along k := by
  rw [h.fractional_add, h.fractional_translation]

theorem translation_injective : Function.Injective cell.translation := by
  intro n m same
  refine Vector3.ext_along fun k => Int.cast_injective (α := α) ?_
  rw [← h.fractional_translation, ← h.fractional_translation, same]

theorem cartesian_eq_combine (c : Vector3 α) : cell.cartesian c = cell.matrix.combine c := by
  rw [cartesian, h.cartesian_eq]
  rfl

theorem cartesian_ofInt (n : Vector3 Int) :
    cell.cartesian (n.map Scalar.ofInt) = cell.translation n := h.cartesian_eq_combine _

/-- A vector is the combination of the cell vectors that its coordinates say. -/
theorem combine_fractional (v : Vector3 α) : cell.matrix.combine (cell.fractional v) = v := by
  refine Vector3.ext_along fun k => ?_
  have hx : (cell.fractional v).x = v.dot (cell.normal .x) / cell.matrix.determinant :=
    h.fractional_along v .x
  have hy : (cell.fractional v).y = v.dot (cell.normal .y) / cell.matrix.determinant :=
    h.fractional_along v .y
  have hz : (cell.fractional v).z = v.dot (cell.normal .z) / cell.matrix.determinant :=
    h.fractional_along v .z
  rw [Matrix3.combine_along, hx, hy, hz, mul_div_assoc', mul_div_assoc', mul_div_assoc', ← add_div,
    ← add_div, div_eq_iff h.positive.ne']
  cases k <;>
  · simp only [normal, Vector3.along, Vector3.dot_eq, Vector3.cross_eq, determinant_eq]
    ring

theorem fractional_injective : Function.Injective cell.fractional := by
  intro u v same
  rw [← h.combine_fractional u, same, h.combine_fractional]

/-! ### Distances between faces -/

theorem normal_norm_pos (k : Direction) : 0 < (cell.normal k).norm := by
  have across : (cell.matrix.along k).dot (cell.normal k) = cell.matrix.determinant := by
    cases k <;>
    · simp only [normal, Vector3.along, Vector3.dot_eq, Vector3.cross_eq, determinant_eq]
      ring
  refine (cell.normal k).norm_nonneg.lt_of_ne fun zero => ?_
  have bound := Vector3.abs_dot_le (cell.matrix.along k) (cell.normal k)
  rw [across, ← zero, mul_zero, abs_of_pos h.positive] at bound
  exact absurd bound (not_le.2 h.positive)

theorem faceDistances_along (k : Direction) :
    cell.faceDistances.along k = cell.matrix.determinant / (cell.normal k).norm := by
  have periodic : cell.isInfinite = false := by simpa [isInfinite] using h.periodic
  rw [faceDistances, periodic, if_neg Bool.false_ne_true, h.volume_eq]
  cases k <;> rfl

theorem faceDistances_pos (k : Direction) : 0 < cell.faceDistances.along k := by
  rw [h.faceDistances_along]
  exact div_pos h.positive (h.normal_norm_pos k)

/-- A vector crosses no more of the distance between two faces than its length. -/
theorem abs_fractional_mul_le (v : Vector3 α) (k : Direction) :
    |(cell.fractional v).along k| * cell.faceDistances.along k ≤ v.norm := by
  rw [h.fractional_along, h.faceDistances_along, abs_div, abs_of_pos h.positive,
    div_mul_div_cancel₀ h.positive.ne', div_le_iff₀ (h.normal_norm_pos k)]
  exact Vector3.abs_dot_le v (cell.normal k)

end Lattice

/-! ### Boxes -/

theorem fractional_box (lengths v : Vector3 α) (k : Direction) :
    ((box lengths).fractional v).along k = v.along k / lengths.along k := by
  cases k <;>
  · simp only [box, fractional, Matrix3.mulVector, Matrix3.ofDiagonal, Vector3.along, Vector3.map,
      Vector3.dot_eq, ExactField.zero_eq, ExactField.one_eq]
    ring

/-- The faces of a box are as far apart as its sides are long. -/
theorem faceDistances_box {lengths : Vector3 α} (positive : ∀ k, 0 < lengths.along k) :
    (box lengths).faceDistances = lengths := by
  have lattice := lattice_box positive
  have hx : 0 < lengths.x := positive .x
  have hy : 0 < lengths.y := positive .y
  have hz : 0 < lengths.z := positive .z
  have determinant : (box lengths).matrix.determinant = lengths.x * lengths.y * lengths.z :=
    determinant_ofDiagonal lengths
  have normal (k : Direction) {c : α} (nonneg : 0 ≤ c)
      (square : ((box lengths).normal k).norm2 = c * c) :
      (box lengths).faceDistances.along k = lengths.x * lengths.y * lengths.z / c := by
    rw [lattice.faceDistances_along, determinant, Vector3.norm_eq nonneg square]
  refine Vector3.ext_along fun k => ?_
  cases k with
  | x =>
    rw [normal .x (c := lengths.y * lengths.z) (mul_pos hy hz).le, Vector3.along]
    · field_simp
    · simp only [UnitCell.normal, box, Matrix3.ofDiagonal, Vector3.norm2, Vector3.dot_eq,
        Vector3.cross_eq, ExactField.zero_eq]
      ring
  | y =>
    rw [normal .y (c := lengths.z * lengths.x) (mul_pos hz hx).le, Vector3.along]
    · field_simp
    · simp only [UnitCell.normal, box, Matrix3.ofDiagonal, Vector3.norm2, Vector3.dot_eq,
        Vector3.cross_eq, ExactField.zero_eq]
      ring
  | z =>
    rw [normal .z (c := lengths.x * lengths.y) (mul_pos hx hy).le, Vector3.along]
    · field_simp
    · simp only [UnitCell.normal, box, Matrix3.ofDiagonal, Vector3.norm2, Vector3.dot_eq,
        Vector3.cross_eq, ExactField.zero_eq]
      ring

end UnitCell

end Atomistic
