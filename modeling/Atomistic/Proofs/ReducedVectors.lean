import Atomistic.Proofs.Lattice
import Atomistic.Proofs.RealScalar

/-!
# Reduced vectors

Wrapping a vector and taking its image both take whole numbers of cell vectors away from it, which
its coordinates tell. A cell that counts as aligned with the axes is reduced direction by direction,
as if it were the box of its diagonal; what is taken away is then a translation of that box.
-/

namespace Atomistic

variable {α : Type} [ExactField α]

namespace UnitCell

variable {cell : UnitCell α}

/-! ### Translations -/

theorem translation_add (cell : UnitCell α) (n m : Vector3 Int) :
    cell.translation (Vector3.zipWith (· + ·) n m) = cell.translation n + cell.translation m := by
  rw [translation_eq, translation_eq, translation_eq, ← Matrix3.combine_add]
  refine congrArg _ (Vector3.ext_along fun k => ?_)
  simp

theorem add_translation_zero (cell : UnitCell α) (v : Vector3 α) :
    v + cell.translation (Vector3.replicate 0) = v := by
  refine Vector3.ext_along fun k => ?_
  rw [Vector3.along_add, translation_along]
  simp [Vector3.replicate]

theorem translation_neg (cell : UnitCell α) (n : Vector3 Int) (k : Direction) :
    (cell.translation (n.map (- ·))).along k = -(cell.translation n).along k := by
  rw [translation_along, translation_along]
  simp only [Vector3.map, Int.cast_neg]
  ring

/-- Taking a translation away is adding the opposite one. -/
theorem sub_translation (cell : UnitCell α) (v : Vector3 α) (n : Vector3 Int) :
    v - cell.translation n = v + cell.translation (n.map (- ·)) := by
  refine Vector3.ext_along fun k => ?_
  rw [Vector3.along_add, Vector3.along_sub, translation_neg, sub_eq_add_neg]

theorem translation_box (lengths : Vector3 α) (n : Vector3 Int) (k : Direction) :
    ((box lengths).translation n).along k = lengths.along k * n.along k := by
  rw [translation_eq, box, Matrix3.combine_ofDiagonal, Vector3.along_map]

/-- One cell vector and none of the others. -/
def unit (j : Direction) : Vector3 Int := .ofDirections fun i => if i = j then 1 else 0

theorem unit_along (j i : Direction) : (unit j).along i = if i = j then 1 else 0 :=
  Vector3.along_ofDirections _ i

theorem translation_unit (cell : UnitCell α) (j : Direction) :
    cell.translation (unit j) = cell.matrix.along j := by
  refine Vector3.ext_along fun k => ?_
  rw [translation_along]
  cases j <;> simp [unit, Vector3.ofDirections, Vector3.along]

/-! ### What is taken away -/

/-- The cell along whose vectors vectors are reduced. -/
def reducing (cell : UnitCell α) : UnitCell α :=
  if cell.shape = .orthorhombic then box cell.matrix.diagonal else cell

theorem reducing_of_triclinic (shape : cell.shape = .triclinic) : cell.reducing = cell := by
  rw [reducing, shape, if_neg nofun]

/-- Reducing a vector takes a translation along the reducing vectors away from it. -/
theorem reduce_eq (h : cell.general.Lattice) (periodic : cell.shape ≠ .infinite) {whole : α → α}
    {number : α → Int} (same : ∀ x, whole x = number x) (v : Vector3 α) :
    cell.reduce whole v
      = v - cell.reducing.translation ((cell.reducing.fractional v).map number) := by
  cases shape : cell.shape with
  | infinite => exact absurd shape periodic
  | orthorhombic =>
    refine Vector3.ext_along fun k => ?_
    rw [reduce, shape, reducing, if_pos shape, Vector3.along_sub, Vector3.along_zipWith,
      translation_box, Vector3.along_map, fractional_box, same, mul_comm]
  | triclinic =>
    have less : (cell.fractional v).map (fun x => x - whole x)
        = cell.fractional v - ((cell.fractional v).map number).map Int.cast := by
      refine Vector3.ext_along fun k => ?_
      simp [same]
    rw [reduce, shape, reducing_of_triclinic shape, translation_eq]
    dsimp only
    rw [less]
    refine (h.cartesian_eq_combine _).trans ((Matrix3.combine_sub _ _ _).trans ?_)
    exact congrArg (· - _) (h.combine_fractional v)

/-- Coordinates in a cell along the axes are taken direction by direction. -/
theorem Lattice.fractional_of_offDiagonal (h : cell.Lattice)
    (aligned : ∀ x ∈ cell.matrix.offDiagonal, x = 0) (v : Vector3 α) (k : Direction) :
    (cell.fractional v).along k = v.along k / cell.matrix.diagonal.along k := by
  have own := h.combine_fractional v
  rw [← Matrix3.ofDiagonal_diagonal aligned] at own
  have nonzero : cell.matrix.diagonal.along k ≠ 0 := by
    have volume := h.positive.ne'
    rw [determinant_of_offDiagonal aligned] at volume
    cases k with
    | x => exact left_ne_zero_of_mul (left_ne_zero_of_mul volume)
    | y => exact right_ne_zero_of_mul (left_ne_zero_of_mul volume)
    | z => exact right_ne_zero_of_mul volume
  rw [eq_div_iff nonzero, mul_comm, ← Matrix3.combine_ofDiagonal, own]

/-- A cell that is aligned with the axes whenever it counts as such is reduced along its own
vectors. -/
theorem reducing_eq_of_aligned (h : cell.general.Lattice)
    (aligned : cell.shape = .orthorhombic → ∀ x ∈ cell.matrix.offDiagonal, x = 0) :
    cell.reducing.translation = cell.translation ∧
      cell.reducing.fractional = cell.fractional := by
  rw [reducing]
  split
  · next shape =>
    have diagonal := Matrix3.ofDiagonal_diagonal (aligned shape)
    refine ⟨?_, funext fun v => Vector3.ext_along fun k => ?_⟩
    · funext n
      rw [translation_eq, translation_eq, box, diagonal]
    · rw [fractional_box]
      exact (h.fractional_of_offDiagonal (aligned shape) v k).symm
  · exact ⟨rfl, rfl⟩

/-! ### Wrapping and images -/

/-- The integer that is nearest to a scalar, away from zero when there are two. -/
def nearest (x : α) : Int :=
  if x < 0 then ⌈x - ((2 : Nat) : α)⁻¹⌉ else ⌊x + ((2 : Nat) : α)⁻¹⌋

theorem nearest_eq (x : α) : nearest x = if x < 0 then ⌈x - 1 / 2⌉ else ⌊x + 1 / 2⌋ := by
  rw [nearest, Nat.cast_ofNat, one_div]

theorem round_eq (x : α) : Scalar.round x = nearest x := by
  change (if x < 0 then ((⌈x - 1 / 2⌉ : Int) : α) else ((⌊x + 1 / 2⌋ : Int) : α)) = _
  rw [nearest_eq]
  split <;> rfl

section Periodic

variable (h : cell.general.Lattice) (periodic : cell.shape ≠ .infinite)
include h periodic

theorem wrap_eq (v : Vector3 α) : cell.wrap v
    = v - cell.reducing.translation ((cell.reducing.fractional v).map Int.floor) :=
  reduce_eq h periodic (fun _ => rfl) v

theorem image_eq (v : Vector3 α) : cell.image v
    = v - cell.reducing.translation ((cell.reducing.fractional v).map nearest) :=
  reduce_eq h periodic round_eq v

end Periodic

/-! ### A cell that leans -/

/-- A matrix with an entry outside of the diagonal that is not small makes a cell of no special
shape. -/
theorem ofMatrix_triclinic {m : Matrix3 α} {x : α} (hx : x ∈ m.offDiagonal)
    (visible : 1 / 10 ^ 6 ≤ |x|) (large : 1 / 10 ^ 6 < m.determinant) :
    ∃ cell, ofMatrix m = .ok cell ∧ cell.shape = .triclinic ∧ cell.matrix = m := by
  have entry : x ∈ m.toList := by
    simp only [Matrix3.offDiagonal, List.mem_cons, List.not_mem_nil, or_false] at hx
    simp only [Matrix3.toList, Vector3.toList, List.mem_append, List.mem_cons, List.not_mem_nil,
      or_false]
    tauto
  have tiny : (1 : α) / 10 ^ 12 ≤ 1 / 10 ^ 6 := by norm_num
  refine ⟨_, ofMatrix_eq_ok entry (tiny.trans visible) large, if_neg fun all => ?_, rfl⟩
  have below := List.all_eq_true.1 all x hx
  rw [isBelow, ExactField.lt_eq_true, ExactField.decimal_one] at below
  exact absurd below (not_lt.2 visible)

/-- Vectors of which the second leans far over the first. -/
def leaning : Matrix3 ℝ := ⟨⟨1, 0, 0⟩, ⟨(3 : Nat), 1, 0⟩, ⟨0, 0, 1⟩⟩

theorem determinant_leaning : leaning.determinant = 1 := by
  rw [determinant_eq, leaning]
  norm_num

theorem ofMatrix_leaning : ∃ cell, ofMatrix leaning = .ok cell ∧ cell.shape = .triclinic ∧
    cell.matrix = leaning := by
  have leans : (3 : ℝ) ∈ leaning.offDiagonal := by simp [leaning, Matrix3.offDiagonal]
  have visible : (1 : ℝ) / 10 ^ 6 ≤ |3| := by norm_num
  have large : (1 : ℝ) / 10 ^ 6 < leaning.determinant := by
    rw [determinant_leaning]
    norm_num
  exact ofMatrix_triclinic leans visible large

end UnitCell

end Atomistic
