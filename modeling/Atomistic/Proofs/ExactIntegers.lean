import Atomistic.Proofs.PeriodicNeighbors
import Atomistic.Proofs.CountedBins

/-!
# Exact integers

Bins and numbers of cells are 32-bit integers on the way to a neighbor list. Some are cast from
scalars: the bins of atoms, counted on over all images of the cell, and how far to look from a bin.
Others are sums: the bins that are looked at, and the number of cells between two atoms. A cast of a
number that is too large gives the largest integer in its place, so an atom that is far enough from
the cell ends up in a bin of another place. The integers are what they stand for exactly when casts
and sums are in range, as when no bin of an atom is too far from the cell.
-/

namespace Atomistic

variable {α : Type}

/-- The 32-bit integer that a number is cast to is the number itself. -/
def Scalar.CastsExactly [Scalar α] (x : α) : Prop :=
  Scalar.eq (Scalar.ofInt (Scalar.toInt32 x)) x = true

theorem ExactField.castsExactly_intCast [ExactField α] (n : Int) :
    Scalar.CastsExactly (n : α) ↔ BinGrid.isWord n = true := by
  have equal : Scalar.CastsExactly (n : α) ↔ ((Scalar.toInt32 (n : α) : Int) : α) = n :=
    decide_eq_true_iff
  rw [equal, Int.cast_inj, Scalar.toInt32, ExactField.toIntWithin_intCast, BinGrid.isWord_iff]
  omega

namespace NeighborsList

section Words

variable [Scalar α] (positions : Array (Vector3 α)) (cell : UnitCell α) (cutoff : α)

/-- The casts on the way to a neighbor list change no number. -/
structure CastsExact : Prop where
  bins : ∀ i (h : i < positions.size) k,
    Scalar.CastsExactly (Scalar.floor ((cell.fractional positions[i]).along k
      * Scalar.ofNat ((grid positions cell cutoff).shape.along k)))
  reach : ∀ k, Scalar.CastsExactly (Scalar.ceil
    (cutoff * (BinGrid.binCounts (grid positions cell cutoff).lengths cutoff).along k
      / (grid positions cell cutoff).lengths.along k))

/-- Every 32-bit integer on the way to a neighbor list is the integer that it stands for. -/
structure IntegersExact : Prop extends CastsExact positions cell cutoff where
  looked : ∀ bin : Vector3 Nat, (∀ k, bin.along k < (grid positions cell cutoff).shape.along k) →
    ∀ offset : Vector3 Int,
      (∀ k, offset.along k ∈ BinGrid.offsets ((grid positions cell cutoff).reach.along k)) →
      ∀ k, BinGrid.isWord (bin.along k + offset.along k) = true
  shifts : ∀ e ∈ (grid positions cell cutoff).encounters
    ((grid positions cell cutoff).placeAll positions), e.fitsWords = true

/-- Rows of bins, with those that are looked at beyond their end, are short enough. -/
def RowsFit : Prop := ∀ k, ((grid positions cell cutoff).shape.along k : Int)
  + (grid positions cell cutoff).reach.along k ≤ 2 ^ 31

/-- When some number of cells brings the bins of two atoms within reach of each other, it is a
32-bit integer, and so is the number of cells to the image of the second atom. -/
def ImagesFit : Prop := ∀ i j (_ : i < positions.size) (_ : j < positions.size), i < j →
  ∀ n : Vector3 Int,
    (grid positions cell cutoff).Near ((grid positions cell cutoff).rawBin positions[i]).along
      (fun k => ((grid positions cell cutoff).rawBin positions[j]).along k
        + n.along k * (grid positions cell cutoff).shape.along k) →
    ∀ k, BinGrid.isWord (n.along k) = true ∧
      BinGrid.isWord (((grid positions cell cutoff).rawBin positions[j]).along k
        / ((grid positions cell cutoff).shape.along k : Int) + n.along k) = true

/-- The bins of atoms are not too far from those of the cell. -/
def BinsNear : Prop := ∀ i (_ : i < positions.size) k,
  |((grid positions cell cutoff).rawBin positions[i]).along k|
    + (grid positions cell cutoff).reach.along k ≤ 2 ^ 30

variable {positions cell cutoff}

theorem reach_pos (periodic : cell.shape ≠ .infinite) (k : Direction) :
    1 ≤ (grid positions cell cutoff).reach.along k := by
  have isPeriodic : cell.isInfinite = false := by simpa [UnitCell.isInfinite] using periodic
  rw [grid, BinGrid.reach_ofPositions, Vector3.along_zipWith, isPeriodic, BinGrid.reachAlong,
    if_neg Bool.false_ne_true]
  exact le_max_right _ _

variable [CountsBins α]

theorem count_pos (k : Direction) : 0 < (grid positions cell cutoff).shape.along k :=
  BinGrid.one_le_shape positions cell cutoff k

/-! ### Bins that are looked at -/

/-- The last bin is looked from farthest. -/
theorem looked_iff_rowsFit (periodic : cell.shape ≠ .infinite) :
    (∀ bin : Vector3 Nat, (∀ k, bin.along k < (grid positions cell cutoff).shape.along k) →
      ∀ offset : Vector3 Int,
        (∀ k, offset.along k ∈ BinGrid.offsets ((grid positions cell cutoff).reach.along k)) →
        ∀ k, BinGrid.isWord (bin.along k + offset.along k) = true) ↔
    RowsFit positions cell cutoff := by
  constructor
  · intro looked k
    have count (k : Direction) : 0 < (grid positions cell cutoff).shape.along k := count_pos k
    have reach (k : Direction) : 1 ≤ (grid positions cell cutoff).reach.along k :=
      reach_pos periodic k
    have last := looked (.ofDirections fun k => (grid positions cell cutoff).shape.along k - 1)
      (fun k => by
        have := count k
        rw [Vector3.along_ofDirections]
        omega)
      (.ofDirections (grid positions cell cutoff).reach.along)
      (fun k => by
        have := reach k
        rw [Vector3.along_ofDirections, BinGrid.mem_offsets]
        omega) k
    have := count k
    rw [Vector3.along_ofDirections, Vector3.along_ofDirections, BinGrid.isWord_iff] at last
    omega
  · intro rows bin inside offset within k
    have := inside k
    have := BinGrid.mem_offsets.1 (within k)
    have := rows k
    rw [BinGrid.isWord_iff]
    omega

/-! ### Cells between atoms -/

/-- The sums of an encounter, from the number of cells between its atoms. -/
theorem fitsWords_iff_shift {e : BinGrid.Encounter} : e.fitsWords = true ↔ ∀ k,
    BinGrid.isWord (e.candidate.shift.along k) = true ∧
    BinGrid.isWord (e.there.shift.along k + e.candidate.shift.along k) = true := by
  rw [BinGrid.Encounter.fitsWords_iff]
  refine forall_congr' fun k => ?_
  have first : e.there.shift.along k + e.candidate.shift.along k
      = e.cells.along k + e.here.shift.along k := by
    rw [BinGrid.Encounter.along_shift]
    omega
  rw [first, ← BinGrid.Encounter.along_shift, and_comm]

section Met

variable (periodic : cell.shape ≠ .infinite)
include periodic

omit [CountsBins α] in
theorem shift_place (i : Nat) (position : Vector3 α) (k : Direction) :
    ((grid positions cell cutoff).place i position).shift.along k
      = ((grid positions cell cutoff).rawBin position).along k
        / ((grid positions cell cutoff).shape.along k : Int) := by
  have isPeriodic : (grid positions cell cutoff).cell.isInfinite = false := by
    rw [grid, BinGrid.cell_ofPositions]
    simpa [UnitCell.isInfinite] using periodic
  rw [BinGrid.place, isPeriodic, if_neg Bool.false_ne_true]
  dsimp only
  rw [BinGrid.cellsOf, Vector3.along_zipWith]

theorem raw_place (i : Nat) (position : Vector3 α) (k : Direction) :
    ((grid positions cell cutoff).place i position).raw (grid positions cell cutoff).shape k
      = ((grid positions cell cutoff).rawBin position).along k :=
  BinGrid.raw_place_of_periodic count_pos periodic i position k

/-- Two atoms meet for each number of cells that brings their bins within reach. -/
theorem exists_encounter {i j : Nat} (hi : i < positions.size) (hj : j < positions.size)
    (less : i < j) {n : Vector3 Int}
    (near : (grid positions cell cutoff).Near
      ((grid positions cell cutoff).rawBin positions[i]).along
      fun k => ((grid positions cell cutoff).rawBin positions[j]).along k
        + n.along k * (grid positions cell cutoff).shape.along k) :
    ∃ e ∈ (grid positions cell cutoff).encounters
        ((grid positions cell cutoff).placeAll positions),
      e.there = (grid positions cell cutoff).place j positions[j] ∧ e.candidate.shift = n := by
  -- the cells between the bins are what the shifts of the atoms leave
  let e : BinGrid.Encounter :=
    { cells := .ofDirections fun k => n.along k
        - ((grid positions cell cutoff).place i positions[i]).shift.along k
        + ((grid positions cell cutoff).place j positions[j]).shift.along k
      here := (grid positions cell cutoff).place i positions[i]
      there := (grid positions cell cutoff).place j positions[j] }
  have shift : e.candidate.shift = n := by
    refine Vector3.ext_along fun k => ?_
    rw [BinGrid.Encounter.along_shift, Vector3.along_ofDirections]
    dsimp only [e]
    omega
  refine ⟨e, (BinGrid.holds_placeAll count_pos |>.mem_encounters count_pos).2
    ⟨BinGrid.mem_placeAll.2 ⟨i, hi, rfl⟩, BinGrid.mem_placeAll.2 ⟨j, hj, rfl⟩, ?_,
      fun k => ?_, fun h => absurd h periodic⟩, rfl, shift⟩
  · rw [BinGrid.place_atom, BinGrid.place_atom]
    exact less
  · rw [BinGrid.Encounter.offset_eq, shift, raw_place periodic, raw_place periodic]
    exact near k

/-- Atoms that meet are in bins that the number of cells between them brings within reach. -/
theorem near_of_encounter {e : BinGrid.Encounter}
    (he : e ∈ (grid positions cell cutoff).encounters
      ((grid positions cell cutoff).placeAll positions)) :
    ∃ i j, ∃ (_ : i < positions.size) (_ : j < positions.size), i < j ∧
      e.there = (grid positions cell cutoff).place j positions[j] ∧
      (grid positions cell cutoff).Near
        ((grid positions cell cutoff).rawBin positions[i]).along
        fun k => ((grid positions cell cutoff).rawBin positions[j]).along k
          + e.candidate.shift.along k * (grid positions cell cutoff).shape.along k := by
  obtain ⟨here, there, less, near, -⟩ :=
    (BinGrid.holds_placeAll count_pos |>.mem_encounters count_pos).1 he
  obtain ⟨i, hi, placed⟩ := BinGrid.mem_placeAll.1 here
  obtain ⟨j, hj, placed'⟩ := BinGrid.mem_placeAll.1 there
  rw [← placed, ← placed', BinGrid.place_atom, BinGrid.place_atom] at less
  refine ⟨i, j, hi, hj, less, placed'.symm, fun k => ?_⟩
  have reach := near k
  rwa [BinGrid.Encounter.offset_eq, ← placed, ← placed', raw_place periodic,
    raw_place periodic] at reach

theorem shifts_iff_imagesFit : (∀ e ∈ (grid positions cell cutoff).encounters
    ((grid positions cell cutoff).placeAll positions), e.fitsWords = true) ↔
    ImagesFit positions cell cutoff := by
  constructor
  · intro fits i j hi hj less n near k
    obtain ⟨e, he, there, rfl⟩ := exists_encounter periodic hi hj less near
    have words := fitsWords_iff_shift.1 (fits e he) k
    rwa [there, shift_place periodic] at words
  · intro fits e he
    obtain ⟨i, j, hi, hj, less, there, near⟩ := near_of_encounter periodic he
    refine fitsWords_iff_shift.2 fun k => ?_
    rw [there, shift_place periodic]
    exact fits i j hi hj less e.candidate.shift near k

end Met

/-! ### Integers in range -/

/-- Bins that are not too far from the cell are not too many cells apart. -/
theorem isWord_of_near {b c r s : Int} {m : Nat} (positive : 0 < m) (reach : 1 ≤ r)
    (here : |b| + r ≤ 2 ^ 30) (there : |c| + r ≤ 2 ^ 30)
    (near : -r ≤ c + s * m - b ∧ c + s * m - b ≤ r) :
    BinGrid.isWord s = true ∧ BinGrid.isWord (c / (m : Int) + s) = true := by
  have cells : (c + s * m) / (m : Int) = c / (m : Int) + s :=
    Int.add_mul_ediv_right c s (by omega)
  have image := abs_le.1 (Int.abs_ediv_le_abs (c + s * m) m)
  have home := abs_le.1 (Int.abs_ediv_le_abs c m)
  have far : |c + s * m| ≤ 2 ^ 30 := by
    have := abs_le.1 (le_refl |b|)
    exact abs_le.2 (by omega)
  rw [cells] at image
  rw [BinGrid.isWord_iff, BinGrid.isWord_iff]
  omega

theorem imagesFit_of_binsNear (periodic : cell.shape ≠ .infinite)
    (near : BinsNear positions cell cutoff) : ImagesFit positions cell cutoff :=
  fun i j hi hj _ _ within k => isWord_of_near (count_pos k) (reach_pos periodic k)
    (near i hi k) (near j hj k) (within k)

/-- Every integer on the way to the neighbor list of a periodic system is what it stands for exactly
when the casts are exact, rows of bins are short enough and so are the numbers of cells between
atoms that may be neighbors. This is so when no bin of an atom is too far from the cell. -/
theorem integersExact_iff (periodic : cell.shape ≠ .infinite) :
    (IntegersExact positions cell cutoff ↔ CastsExact positions cell cutoff ∧
      RowsFit positions cell cutoff ∧ ImagesFit positions cell cutoff) ∧
    (CastsExact positions cell cutoff → RowsFit positions cell cutoff →
      BinsNear positions cell cutoff → IntegersExact positions cell cutoff) := by
  have exact_iff : IntegersExact positions cell cutoff ↔ CastsExact positions cell cutoff ∧
      RowsFit positions cell cutoff ∧ ImagesFit positions cell cutoff := by
    rw [← looked_iff_rowsFit periodic, ← shifts_iff_imagesFit periodic]
    constructor
    · exact fun h => ⟨h.toCastsExact, h.looked, h.shifts⟩
    · exact fun ⟨casts, looked, shifts⟩ => ⟨casts, looked, shifts⟩
  refine ⟨exact_iff, fun casts rows near => ?_⟩
  exact exact_iff.2 ⟨casts, rows, imagesFit_of_binsNear periodic near⟩

end Words

/-! ### Exact arithmetic -/

section Exact

variable [ExactField α] {positions : Array (Vector3 α)} {cell : UnitCell α} {cutoff : α}

/-- Where nothing is rounded, casts are exact when the whole parts are 32-bit integers. -/
theorem castsExact_iff : CastsExact positions cell cutoff ↔
    (∀ i (h : i < positions.size) k, BinGrid.isWord ⌊(cell.fractional positions[i]).along k
      * (grid positions cell cutoff).shape.along k⌋ = true) ∧
    ∀ k, BinGrid.isWord
      ⌈cutoff * (BinGrid.binCounts (grid positions cell cutoff).lengths cutoff).along k
        / (grid positions cell cutoff).lengths.along k⌉ = true := by
  constructor
  · rintro ⟨bins, reach⟩
    refine ⟨fun i h k => ?_, fun k => (ExactField.castsExactly_intCast _).1 (reach k)⟩
    have cast := (ExactField.castsExactly_intCast _).1 (bins i h k)
    rwa [ExactField.ofNat_eq] at cast
  · rintro ⟨bins, reach⟩
    refine ⟨fun i h k => ?_, fun k => (ExactField.castsExactly_intCast _).2 (reach k)⟩
    refine (ExactField.castsExactly_intCast _).2 ?_
    rw [ExactField.ofNat_eq]
    exact bins i h k

end Exact

/-- In a cube all integers are exact. -/
theorem integersExact_iff_cube : (UnitCell.box (⟨1, 1, 1⟩ : Vector3 ℝ)).shape ≠ .infinite ∧
    IntegersExact cornerAtoms (.box ⟨1, 1, 1⟩) 1 := by
  have periodic : (UnitCell.box (⟨1, 1, 1⟩ : Vector3 ℝ)).shape ≠ .infinite := nofun
  have cube := divided_cube
  refine ⟨periodic, (integersExact_iff periodic).2 ?_ ?_ ?_⟩
  · refine castsExact_iff.2 ⟨fun i h k => ?_, fun k => ?_⟩
    · rw [cube.floor_eq h]
      rfl
    · rw [cube.lengths_eq, cube.count, cube.ceil_eq]
      rfl
  · intro k
    rw [cube.shape_eq, cube.reach_eq]
    norm_num
  · intro i h k
    have first : ((grid cornerAtoms (.box ⟨1, 1, 1⟩) 1).rawBin cornerAtoms[i]).along k = 0 :=
      (cube.casts.rawBin_along h k).trans (cube.floor_eq h k)
    rw [first, cube.reach_eq]
    norm_num

/-- An atom that is many cells away from another one, and from an image of it that is close. -/
noncomputable def farAtoms : Array (Vector3 ℝ) :=
  #[⟨0, 0, 0⟩, ⟨(2 ^ 32 : Nat) + ((4 : Nat) : ℝ)⁻¹, 0, 0⟩]

/-- However far from the cell an atom is, its bin is cast to a 32-bit integer. -/
theorem not_forall_integersExact : ¬ ∀ (positions : Array (Vector3 ℝ)) (cell : UnitCell ℝ)
    (cutoff : ℝ), cell.Built → cell.shape ≠ .infinite → 0 < cutoff →
    IntegersExact positions cell cutoff := by
  intro always
  have cutoff_pos : (0 : ℝ) < ((2 : Nat) : ℝ)⁻¹ := by norm_num
  have integers := always farAtoms (.box ⟨1, 1, 1⟩) _ divided_cube.built nofun cutoff_pos
  have count : (1 : ℝ) ≤ (grid farAtoms (.box ⟨1, 1, 1⟩) ((2 : Nat) : ℝ)⁻¹).shape.along .x :=
    Nat.one_le_cast.2 (shape_pos .x)
  have word := (castsExact_iff.1 integers.toCastsExact).1 1 (by decide) .x
  rw [UnitCell.fractional_box] at word
  generalize (grid farAtoms (.box ⟨1, 1, 1⟩) ((2 : Nat) : ℝ)⁻¹).shape.along .x = n at count word
  have position : farAtoms[1].along .x / (⟨1, 1, 1⟩ : Vector3 ℝ).along .x
      = (2 ^ 32 : Nat) + ((4 : Nat) : ℝ)⁻¹ := div_one _
  have large : (2 ^ 32 : Int) ≤ ⌊farAtoms[1].along .x / (⟨1, 1, 1⟩ : Vector3 ℝ).along .x * n⌋ := by
    rw [position, Int.le_floor]
    norm_num
    linarith
  rw [BinGrid.isWord_iff] at word
  omega

end NeighborsList

end Atomistic
