import Atomistic.Proofs.GridShape
import Atomistic.Proofs.Lattice

/-!
# Neighbors are within reach

Two atoms closer than the cutoff are in bins within reach of each other. In a periodic system the
coordinates of the vector between them are small, and so is the difference of their bins, counted on
over all images of the cell. In an open system bins are as wide as the cutoff, so that whole parts
differ by one bin at most; bringing them into the grid does not take them apart.
-/

namespace Atomistic

variable {α : Type} [ExactField α]

theorem Vector3.abs_along_le_norm (v : Vector3 α) (k : Direction) : |v.along k| ≤ v.norm := by
  refine abs_le_of_sq_le_sq ?_ v.norm_nonneg
  have length := v.norm_mul_self
  rw [Vector3.norm2, Vector3.dot_eq] at length
  have hx := mul_self_nonneg v.x
  have hy := mul_self_nonneg v.y
  have hz := mul_self_nonneg v.z
  cases k <;>
  · rw [sq, sq, length, along]
    linarith

namespace BinGrid

variable {g : BinGrid α} {positions : Array (Vector3 α)} {cell : UnitCell α} {cutoff : α}

/-- Numbers less than `r` apart have whole parts at most `r` apart. -/
theorem floor_near {x y : α} {r : Int} (h : |y - x| < r) : -r ≤ ⌊y⌋ - ⌊x⌋ ∧ ⌊y⌋ - ⌊x⌋ ≤ r := by
  obtain ⟨low, high⟩ := abs_lt.1 h
  have up : ⌊y⌋ < ⌊x⌋ + 1 + r := by
    rw [Int.floor_lt]
    push_cast
    linarith [Int.lt_floor_add_one x]
  have down : ⌊x⌋ < ⌊y⌋ + 1 + r := by
    rw [Int.floor_lt]
    push_cast
    linarith [Int.lt_floor_add_one y]
  omega

/-! ### Periodic systems -/

/-- The whole numbers that become 32-bit integers do not change by that: the bins of the atoms, and
how far to look from them. -/
structure CastsFit (g : BinGrid α) (positions : Array (Vector3 α)) (cutoff : α) : Prop where
  bins : ∀ i (h : i < positions.size) k,
    isWord ⌊(g.cell.fractional positions[i]).along k * g.shape.along k⌋ = true
  reach : ∀ k, isWord ⌈cutoff * g.shape.along k / g.lengths.along k⌉ = true

theorem toInt32_intCast {n : Int} (h : isWord n = true) : Scalar.toInt32 (n : α) = n := by
  rw [Scalar.toInt32, ExactField.toIntWithin_intCast]
  rw [isWord_iff] at h
  omega

theorem CastsFit.rawBin_along (fits : g.CastsFit positions cutoff) {i : Nat}
    (h : i < positions.size) (k : Direction) : (g.rawBin positions[i]).along k
      = ⌊(g.cell.fractional positions[i]).along k * g.shape.along k⌋ := by
  rw [rawBin, Vector3.along_zipWith, ExactField.ofNat_eq]
  exact toInt32_intCast (fits.bins i h k)

/-- In a periodic system the grid is searched as far as the cutoff spans. -/
theorem CastsFit.le_reach (fits : g.CastsFit positions cutoff)
    (hg : g = ofPositions positions cell cutoff) (periodic : cell.shape ≠ .infinite)
    (stored : g.total ≤ maxStoredBins) (k : Direction) :
    ⌈cutoff * g.shape.along k / g.lengths.along k⌉ ≤ g.reach.along k := by
  subst hg
  have hopen : cell.isInfinite = false := by simpa [UnitCell.isInfinite] using periodic
  rw [reach_ofPositions, Vector3.along_zipWith, count_eq_shape stored, reachAlong, hopen,
    if_neg Bool.false_ne_true]
  refine le_trans (le_of_eq ?_) (le_max_left _ _)
  exact (toInt32_intCast (fits.reach k)).symm

/-- An image closer than the cutoff is in a bin within reach. -/
theorem near_of_periodic (lattice : cell.Lattice)
    (hg : g = ofPositions positions cell cutoff) (stored : g.total ≤ maxStoredBins)
    (fits : g.CastsFit positions cutoff) {i j : Nat} (hi : i < positions.size)
    (hj : j < positions.size) {n : Vector3 Int}
    (close : (positions[j] - positions[i] + cell.translation n).norm < cutoff) :
    g.Near ((g.place i positions[i]).raw g.shape) fun k =>
      (g.place j positions[j]).raw g.shape k + n.along k * g.shape.along k := by
  intro k
  have hcell : g.cell = cell := hg ▸ cell_ofPositions positions cell cutoff
  have shape : ∀ k, 0 < g.shape.along k := hg ▸ shape_pos positions cell cutoff
  have hlengths : g.lengths = cell.faceDistances :=
    hg ▸ lengths_of_periodic positions cutoff lattice.periodic
  have reach := fits.le_reach hg lattice.periodic stored k
  have periodic : g.cell.shape ≠ .infinite := hcell ▸ lattice.periodic
  dsimp only
  rw [raw_place_of_periodic shape periodic, raw_place_of_periodic shape periodic,
    fits.rawBin_along hi, fits.rawBin_along hj, hcell]
  have faces := lattice.faceDistances_pos k
  have count : (0 : α) < g.shape.along k := Nat.cast_pos.2 (shape k)
  -- the coordinate of the vector between the images, in bins
  have difference : (cell.fractional positions[j]).along k * g.shape.along k
      + ((n.along k * g.shape.along k : Int) : α)
      - (cell.fractional positions[i]).along k * g.shape.along k
      = (cell.fractional (positions[j] - positions[i] + cell.translation n)).along k
        * g.shape.along k := by
    rw [lattice.fractional_add, lattice.fractional_sub, lattice.fractional_translation]
    push_cast
    ring
  have small : |(cell.fractional (positions[j] - positions[i] + cell.translation n)).along k|
      < cutoff / cell.faceDistances.along k :=
    (lt_div_iff₀ faces).2 ((lattice.abs_fractional_mul_le _ k).trans_lt close)
  have spanned := floor_near (r := ⌈cutoff * g.shape.along k / g.lengths.along k⌉)
    (x := (cell.fractional positions[i]).along k * g.shape.along k)
    (y := (cell.fractional positions[j]).along k * g.shape.along k
      + ((n.along k * g.shape.along k : Int) : α)) <| by
    rw [difference, abs_mul, abs_of_pos count, hlengths]
    refine lt_of_lt_of_le ?_ (Int.le_ceil _)
    rw [mul_div_right_comm]
    exact mul_lt_mul_of_pos_right small count
  rw [Int.floor_add_intCast] at spanned
  omega

/-! ### Open systems -/

theorem cutoff_le_lengths (hg : g = ofPositions positions cell cutoff)
    (hopen : cell.shape = .infinite) (k : Direction) : cutoff ≤ g.lengths.along k := by
  rw [hg, lengths_of_open positions cutoff hopen, boundingBox, Vector3.along_map,
    ExactField.greatest_eq]
  exact le_max_right _ _

/-- The bin in a direction, as the whole part brought into the grid. -/
theorem openBin_along (g : BinGrid α) (position : Vector3 α) (k : Direction) :
    ((g.openBin position).along k : Int) = max 0 (min (max (-0x8000000000000000)
      (min 0x7FFFFFFFFFFFFFFF
        ⌊(position - g.origin).along k / g.lengths.along k * g.shape.along k⌋))
      (g.shape.along k - 1)) := by
  have cast (x : α) : Scalar.toInt64 (Scalar.floor x)
      = max (-0x8000000000000000) (min 0x7FFFFFFFFFFFFFFF ⌊x⌋) :=
    ExactField.toIntWithin_intCast _ _ _
  cases k <;>
  · simp only [openBin, Vector3.along, cast, ExactField.ofNat_eq]
    exact Int.toNat_of_nonneg (le_max_left _ _)

/-- In an open system the next bin is looked at, if there is one. -/
theorem reach_of_open (hg : g = ofPositions positions cell cutoff)
    (hopen : cell.shape = .infinite) (stored : g.total ≤ maxStoredBins) (k : Direction) :
    g.reach.along k = if 1 < g.shape.along k then 1 else 0 := by
  subst hg
  rw [reach_ofPositions, Vector3.along_zipWith, count_eq_shape stored, UnitCell.isInfinite, hopen,
    beq_self_eq_true, reachAlong, if_pos rfl]
  by_cases several : 1 < (ofPositions positions cell cutoff).shape.along k
  · rw [if_pos several, if_pos]
    rw [ExactField.lt_eq_true, ExactField.one_eq]
    exact Nat.one_lt_cast.2 several
  · rw [if_neg several, if_neg]
    rw [ExactField.lt_eq_true, ExactField.one_eq]
    exact fun h => several (Nat.one_lt_cast.1 h)

/-- Atoms closer than the cutoff are in the same bin or in bins next to each other. -/
theorem near_of_open (hopen : cell.shape = .infinite) (positive : 0 < cutoff)
    (hg : g = ofPositions positions cell cutoff) (stored : g.total ≤ maxStoredBins) {i j : Nat}
    (hi : i < positions.size) (hj : j < positions.size)
    (close : (positions[j] - positions[i]).norm < cutoff) :
    g.Near ((g.place i positions[i]).raw g.shape) ((g.place j positions[j]).raw g.shape) := by
  intro k
  have hcell : g.cell = cell := hg ▸ cell_ofPositions positions cell cutoff
  have shape : ∀ k, 0 < g.shape.along k := hg ▸ shape_pos positions cell cutoff
  have gopen : g.cell.shape = .infinite := hcell ▸ hopen
  have wide := cutoff_le_lengths hg hopen
  rw [raw_place_of_open gopen, raw_place_of_open gopen, reach_of_open hg hopen stored]
  split
  · have extent : 0 < g.lengths.along k := positive.trans_le (wide k)
    have count : (0 : α) < g.shape.along k := Nat.cast_pos.2 (shape k)
    have bins : (g.shape.along k : α) * cutoff ≤ g.lengths.along k := by
      have fits := count_le wide positive k
      rwa [hg, count_eq_shape (hg ▸ stored), ← hg] at fits
    have whole := floor_near (r := 1)
      (x := (positions[i] - g.origin).along k / g.lengths.along k * g.shape.along k)
      (y := (positions[j] - g.origin).along k / g.lengths.along k * g.shape.along k) <| by
      have difference : (positions[j] - g.origin).along k / g.lengths.along k * g.shape.along k
          - (positions[i] - g.origin).along k / g.lengths.along k * g.shape.along k
          = (positions[j] - positions[i]).along k * g.shape.along k / g.lengths.along k := by
        rw [Vector3.along_sub, Vector3.along_sub, Vector3.along_sub]
        ring
      rw [difference, abs_div, abs_mul, abs_of_pos count, abs_of_pos extent, Int.cast_one,
        div_lt_one extent, mul_comm]
      refine lt_of_lt_of_le (mul_lt_mul_of_pos_left ?_ count) bins
      exact (Vector3.abs_along_le_norm _ k).trans_lt close
    rw [openBin_along, openBin_along]
    omega
  · next single =>
    have here := openBin_lt shape positions[i] k
    have there := openBin_lt shape positions[j] k
    omega

end BinGrid

end Atomistic
