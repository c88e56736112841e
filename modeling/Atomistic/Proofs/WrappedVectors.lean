import Atomistic.Proofs.ReducedVectors

/-!
# Wrapped vectors

A cell wraps vectors when it brings each of them inside by a translation: then vectors that differ
by a translation have the same place inside, and one that is inside stays where it is. A periodic
cell does so unless it counts as aligned with the axes although it is not, by entries outside of the
diagonal that are small but not zero.
-/

namespace Atomistic.UnitCell

variable {α : Type} [ExactField α] {cell : UnitCell α}

/-- Vectors are wrapped into the cell. -/
structure Wraps (cell : UnitCell α) : Prop where
  translated : ∀ v, ∃ n, cell.wrap v = v + cell.translation n
  inside : ∀ v k, 0 ≤ (cell.fractional (cell.wrap v)).along k ∧
    (cell.fractional (cell.wrap v)).along k < 1
  periodic : ∀ v n, cell.wrap (v + cell.translation n) = cell.wrap v
  again : ∀ v, cell.wrap (cell.wrap v) = cell.wrap v

/-! ### Cells that are what they count as -/

section Aligned

variable (h : cell.general.Lattice) (periodic : cell.shape ≠ .infinite)
  (aligned : cell.shape = .orthorhombic → ∀ x ∈ cell.matrix.offDiagonal, x = 0)
include h periodic aligned

theorem wrap_of_aligned (v : Vector3 α) :
    cell.wrap v = v - cell.translation ((cell.fractional v).map Int.floor) := by
  obtain ⟨translation, fractional⟩ := reducing_eq_of_aligned h aligned
  rw [wrap_eq h periodic, translation, fractional]

/-- Wrapping leaves the fractions of the coordinates. -/
theorem fractional_wrap (v : Vector3 α) (k : Direction) :
    (cell.fractional (cell.wrap v)).along k = Int.fract ((cell.fractional v).along k) := by
  rw [wrap_of_aligned h periodic aligned, ← Int.self_sub_floor]
  refine (h.fractional_sub _ _ k).trans (congrArg _ ?_)
  exact (h.fractional_translation _ k).trans (congrArg Int.cast (Vector3.along_map ..))

/-- Vectors whose coordinates have the same fractions have the same place in the cell. -/
theorem wrap_eq_wrap {u v : Vector3 α} (same : ∀ k,
    Int.fract ((cell.fractional u).along k) = Int.fract ((cell.fractional v).along k)) :
    cell.wrap u = cell.wrap v := by
  refine h.fractional_injective (Vector3.ext_along fun k => ?_)
  change (cell.fractional _).along k = (cell.fractional _).along k
  rw [fractional_wrap h periodic aligned, fractional_wrap h periodic aligned, same]

theorem wraps_of_aligned : cell.Wraps where
  translated v := ⟨_, (wrap_of_aligned h periodic aligned v).trans (sub_translation ..)⟩
  inside v k := by
    rw [fractional_wrap h periodic aligned]
    exact ⟨Int.fract_nonneg _, Int.fract_lt_one _⟩
  periodic v n := by
    refine wrap_eq_wrap h periodic aligned fun k => ?_
    have sum : (cell.fractional (v + cell.translation n)).along k
        = (cell.fractional v).along k + n.along k := h.fractional_add_translation v n k
    rw [sum, Int.fract_add_intCast]
  again v := by
    refine wrap_eq_wrap h periodic aligned fun k => ?_
    rw [fractional_wrap h periodic aligned, Int.fract_fract]

end Aligned

/-! ### Cells that count as aligned -/

section Orthorhombic

/-- In a cell that counts as aligned, each coordinate is wrapped by the entry on the diagonal. -/
theorem wrap_along (h : cell.general.Lattice) (shape : cell.shape = .orthorhombic)
    (v : Vector3 α) (k : Direction) : (cell.wrap v).along k
      = v.along k - cell.matrix.diagonal.along k * ⌊v.along k / cell.matrix.diagonal.along k⌋ := by
  have periodic : cell.shape ≠ .infinite := by rw [shape]; nofun
  rw [wrap_eq h periodic, reducing, if_pos shape, Vector3.along_sub, translation_box,
    Vector3.along_map, fractional_box]

/-- Vectors inside stay where they are. -/
theorem Wraps.of_inside (wraps : cell.Wraps) (h : cell.general.Lattice) {v : Vector3 α}
    (inside : ∀ k, 0 ≤ (cell.fractional v).along k ∧ (cell.fractional v).along k < 1) :
    cell.wrap v = v := by
  obtain ⟨n, moved⟩ := wraps.translated v
  have none : n = Vector3.replicate 0 := by
    refine Vector3.ext_along fun k => ?_
    have after := wraps.inside v k
    have sum : (cell.fractional (v + cell.translation n)).along k
        = (cell.fractional v).along k + n.along k := h.fractional_add_translation v n k
    rw [moved, sum] at after
    have above : (-1 : α) < n.along k := by linarith [(inside k).2]
    have below : (n.along k : α) < 1 := by linarith [(inside k).1]
    have above' : -1 < n.along k := by exact_mod_cast above
    have below' : n.along k < 1 := by exact_mod_cast below
    rw [Vector3.along_replicate]
    omega
  rw [moved, none, add_translation_zero]

variable (wraps : cell.Wraps) (h : cell.general.Lattice) (shape : cell.shape = .orthorhombic)
  {k : Direction}
include wraps h shape

/-- Translations are wrapped to zero, so that each of their coordinates is a whole number of
entries on the diagonal. -/
theorem Wraps.whole (n : Vector3 Int) : (cell.translation n).along k
    = cell.matrix.diagonal.along k
      * ⌊(cell.translation n).along k / cell.matrix.diagonal.along k⌋ := by
  have zero : Vector3.zero + cell.translation n = cell.translation n := by
    refine Vector3.ext_along fun i => ?_
    simp [Vector3.zero]
  have same : (cell.wrap (Vector3.zero + cell.translation n)).along k
      = (cell.wrap Vector3.zero).along k := by rw [wraps.periodic]
  rw [zero, wrap_along h shape, wrap_along h shape, sub_eq_iff_eq_add] at same
  have nothing : (Vector3.zero : Vector3 α).along k - cell.matrix.diagonal.along k
      * ⌊(Vector3.zero : Vector3 α).along k / cell.matrix.diagonal.along k⌋ = 0 := by
    simp [Vector3.zero]
  rw [nothing, zero_add] at same
  exact same

/-- The half of a corner of the cell is inside of the box of its diagonal. -/
theorem Wraps.half (nonzero : cell.matrix.diagonal.along k ≠ 0) {n : Vector3 Int}
    (corner : ∀ i, n.along i = 0 ∨ n.along i = 1) :
    0 ≤ (cell.translation n).along k * 2⁻¹ / cell.matrix.diagonal.along k ∧
      (cell.translation n).along k * 2⁻¹ / cell.matrix.diagonal.along k < 1 := by
  have stays : cell.wrap ((cell.translation n).scale 2⁻¹) = (cell.translation n).scale 2⁻¹ := by
    refine wraps.of_inside h fun i => ?_
    have coordinate : (cell.fractional ((cell.translation n).scale 2⁻¹)).along i
        = n.along i * 2⁻¹ :=
      (h.fractional_scale _ _ i).trans (congrArg (· * _) (h.fractional_translation n i))
    rw [coordinate]
    rcases corner i with hi | hi <;> norm_num [hi]
  have same := wrap_along h shape ((cell.translation n).scale 2⁻¹) k
  rw [stays, Vector3.scale, Vector3.along_map] at same
  have none : ⌊(cell.translation n).along k * 2⁻¹ / cell.matrix.diagonal.along k⌋ = 0 := by
    have product := sub_eq_self.1 same.symm
    exact Int.cast_eq_zero.1 ((mul_eq_zero.1 product).resolve_left nonzero)
  exact Int.floor_eq_zero_iff.1 none

/-- So the entries outside of the diagonal are zero. -/
theorem Wraps.entry_eq_zero {j : Direction} (ne : j ≠ k) : (cell.matrix.along j).along k = 0 := by
  have whole := wraps.whole h shape (k := k) (unit j)
  rw [translation_unit] at whole
  by_cases zero : cell.matrix.diagonal.along k = 0
  · rw [whole, zero, zero_mul]
  · -- half of the cell vector bounds the entry from below, half of the diagonal from above
    have lower := wraps.half h shape zero (n := unit j) fun i => by
      rw [unit_along]
      split <;> simp
    have upper := wraps.half h shape zero (n := Vector3.zipWith (· + ·) (unit j) (unit k))
      fun i => by
        rw [Vector3.along_zipWith, unit_along, unit_along]
        by_cases hi : i = j
        · simp [hi, ne]
        · rw [if_neg hi, zero_add]
          split <;> simp
    have corner : (cell.matrix.along k).along k = cell.matrix.diagonal.along k := by
      cases k <;> rfl
    rw [translation_unit] at lower
    rw [translation_add, translation_unit, translation_unit, Vector3.along_add, corner] at upper
    have half : (cell.matrix.along j).along k / cell.matrix.diagonal.along k
        = (cell.matrix.along j).along k * 2⁻¹ / cell.matrix.diagonal.along k * 2 := by
      field_simp
    have both : ((cell.matrix.along j).along k + cell.matrix.diagonal.along k) * 2⁻¹
        / cell.matrix.diagonal.along k
        = ((cell.matrix.along j).along k / cell.matrix.diagonal.along k + 1) * 2⁻¹ := by
      field_simp
    have none : ⌊(cell.matrix.along j).along k / cell.matrix.diagonal.along k⌋ = 0 := by
      refine Int.floor_eq_zero_iff.2 ⟨?_, ?_⟩
      · rw [half]
        exact mul_nonneg lower.1 two_pos.le
      · have above := upper.2
        rw [both] at above
        linarith
    rw [whole, none, Int.cast_zero, mul_zero]

end Orthorhombic

/-! ### Which cells wrap vectors -/

/-- A periodic cell wraps vectors exactly when it is aligned with the axes or does not count as
such. -/
theorem wraps_iff (built : cell.Built) (periodic : cell.shape ≠ .infinite) : cell.Wraps ↔
    (cell.shape = .orthorhombic → ∀ x ∈ cell.matrix.offDiagonal, x = 0) := by
  have h := built.general periodic
  constructor
  · intro wraps shape
    have entry {j k : Direction} (ne : j ≠ k) := wraps.entry_eq_zero h shape ne
    simp only [Matrix3.offDiagonal, List.forall_mem_cons]
    have ne_xy : Direction.x ≠ .y := by decide
    have ne_xz : Direction.x ≠ .z := by decide
    have ne_yz : Direction.y ≠ .z := by decide
    exact ⟨entry ne_xy, entry ne_xz, entry ne_xy.symm, entry ne_yz, entry ne_xz.symm,
      entry ne_yz.symm, List.forall_mem_nil _⟩
  · exact wraps_of_aligned h periodic

/-- A cell wraps vectors however much it leans. -/
theorem wraps_iff_leaning : ∃ cell : UnitCell ℝ, ofMatrix leaning = .ok cell ∧ cell.Built ∧
    cell.shape ≠ .infinite ∧ cell.Wraps := by
  obtain ⟨cell, made, shape, -⟩ := ofMatrix_leaning
  have periodic : cell.shape ≠ .infinite := by
    rw [shape]
    nofun
  refine ⟨cell, made, .ofMatrix made, periodic, (wraps_iff (.ofMatrix made) periodic).2 ?_⟩
  rw [shape]
  nofun

/-- Vectors of which the first is hardly tilted. -/
noncomputable def tilted : Matrix3 ℝ := ⟨⟨1, ((2 ^ 21 : Nat) : ℝ)⁻¹, 0⟩, ⟨0, 1, 0⟩, ⟨0, 0, 1⟩⟩

theorem determinant_tilted : tilted.determinant = 1 := by
  rw [determinant_eq, tilted]
  norm_num

theorem ofMatrix_tilted : ∃ cell, ofMatrix tilted = .ok cell ∧ cell.shape = .orthorhombic ∧
    cell.matrix = tilted := by
  have first : (1 : ℝ) ∈ tilted.toList := List.mem_cons_self
  have visible : (1 : ℝ) / 10 ^ 12 ≤ |1| := by norm_num
  have large : (1 : ℝ) / 10 ^ 6 < tilted.determinant := by
    rw [determinant_tilted]
    norm_num
  refine ⟨_, ofMatrix_eq_ok first visible large, if_pos ?_, rfl⟩
  rw [List.all_eq_true]
  intro x hx
  rw [isBelow, ExactField.lt_eq_true, ExactField.decimal_one]
  change |x| < _
  simp only [Matrix3.offDiagonal, tilted, List.mem_cons, List.not_mem_nil, or_false] at hx
  rcases hx with rfl | rfl | rfl | rfl | rfl | rfl <;> norm_num [abs_lt]

/-- A cell that is hardly tilted counts as aligned, and leaves vectors outside of it. -/
theorem not_forall_wraps : ¬ ∀ cell : UnitCell ℝ, cell.Built → cell.shape ≠ .infinite →
    cell.Wraps := by
  intro always
  obtain ⟨cell, made, shape, matrix⟩ := ofMatrix_tilted
  have periodic : cell.shape ≠ .infinite := by
    rw [shape]
    nofun
  have h := (Built.ofMatrix made).general periodic
  have wraps := always cell (.ofMatrix made) periodic
  have stays : cell.wrap ⟨1 / 2, 0, 0⟩ = ⟨1 / 2, 0, 0⟩ := by
    refine Vector3.ext_along fun k => ?_
    rw [wrap_along h shape, matrix]
    cases k <;> norm_num [tilted, Matrix3.diagonal, Vector3.along]
  have inside := (wraps.inside ⟨1 / 2, 0, 0⟩ .y).1
  have coordinate : (cell.fractional ⟨1 / 2, 0, 0⟩).along .y = -(1 / 2 ^ 22) := by
    refine (h.fractional_along _ .y).trans ?_
    change Vector3.dot _ (cell.matrix.z.cross cell.matrix.x) / cell.matrix.determinant = _
    rw [matrix, determinant_tilted, Vector3.cross_eq, Vector3.dot_eq]
    norm_num [tilted]
  rw [stays, coordinate] at inside
  norm_num at inside

end Atomistic.UnitCell
