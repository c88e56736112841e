import Atomistic.Proofs.ExactScalar
import Atomistic.Proofs.BinCandidates

/-!
# The shape of a grid

A grid has one bin at least in every direction, and its numbers of bins are exact unless there are
too many bins to store. Every atom is put into one bin of the grid. The bins of an open system are
at least as wide as the cutoff, before and after their number is reduced.
-/

namespace Atomistic.BinGrid

/-! ### Atoms in bins -/

section Atoms

variable {α : Type} [Scalar α] {g : BinGrid α} {positions : Array (Vector3 α)}

omit [Scalar α] in
theorem mem_placeAllBy {put : Nat → Vector3 α → BinnedAtom} {a : BinnedAtom} :
    a ∈ placeAllBy put positions ↔ ∃ i, ∃ h : i < positions.size, put i positions[i] = a := by
  rw [placeAllBy, List.mem_map]
  constructor
  · rintro ⟨⟨position, i⟩, hmem, rfl⟩
    rw [List.mk_mem_zipIdx_iff_getElem?, Array.getElem?_toList] at hmem
    obtain ⟨h, rfl⟩ := Array.getElem?_eq_some_iff.1 hmem
    exact ⟨i, h, rfl⟩
  · rintro ⟨i, h, rfl⟩
    refine ⟨(positions[i], i), ?_, rfl⟩
    rw [List.mk_mem_zipIdx_iff_getElem?, Array.getElem?_toList]
    exact Array.getElem?_eq_getElem h

theorem mem_placeAll {a : BinnedAtom} :
    a ∈ g.placeAll positions ↔ ∃ i, ∃ h : i < positions.size, g.place i positions[i] = a :=
  mem_placeAllBy

theorem place_atom (i : Nat) (position : Vector3 α) : (g.place i position).atom = i := by
  unfold place
  split <;> rfl

theorem atoms_placeAll :
    (g.placeAll positions).map (·.atom) = List.range positions.size := by
  have numbers : (BinnedAtom.atom ∘ fun p : Vector3 α × Nat => g.place p.2 p.1) = Prod.snd :=
    funext fun p => place_atom p.2 p.1
  have all : (g.placeAll positions).map (·.atom) = positions.toList.zipIdx.map Prod.snd := by
    rw [placeAll, placeAllBy, List.map_map]
    exact congrArg (List.map · _) numbers
  rw [all, List.zipIdx_map_snd, Array.length_toList, List.range_eq_range']

theorem openBin_lt (positive : ∀ k, 0 < g.shape.along k) (position : Vector3 α) (k : Direction) :
    (g.openBin position).along k < g.shape.along k := by
  have count := positive k
  cases k <;>
  · simp only [openBin, Vector3.along] at count ⊢
    omega

theorem binOf_lt {shape : Vector3 Nat} (positive : ∀ k, 0 < shape.along k) (raw : Vector3 Int)
    (k : Direction) : (binOf shape raw).along k < shape.along k := by
  rw [binOf, Vector3.along_zipWith]
  exact ((div_mod_iff (positive k)).1 ⟨rfl, rfl⟩).1

/-- Every atom is in one bin of the grid. -/
theorem holds_placeAll (positive : ∀ k, 0 < g.shape.along k) :
    g.Holds (g.placeAll positions) where
  distinct := by
    rw [atoms_placeAll]
    exact List.nodup_range
  inside := by
    intro a ha k
    obtain ⟨i, hi, rfl⟩ := mem_placeAll.1 ha
    unfold place
    split
    · exact openBin_lt positive _ k
    · exact binOf_lt positive _ k
  home := by
    intro hopen a ha k
    obtain ⟨i, hi, rfl⟩ := mem_placeAll.1 ha
    rw [place, UnitCell.isInfinite, hopen, beq_self_eq_true, if_pos rfl]
    exact Vector3.along_replicate 0 k

theorem raw_place_of_open (hopen : g.cell.shape = .infinite) (i : Nat) (position : Vector3 α)
    (k : Direction) :
    (g.place i position).raw g.shape k = (g.openBin position).along k := by
  rw [place, UnitCell.isInfinite, hopen, beq_self_eq_true, if_pos rfl, BinnedAtom.raw,
    Vector3.along_replicate, Int.zero_mul, Int.zero_add]

theorem raw_place_of_periodic (positive : ∀ k, 0 < g.shape.along k)
    (periodic : g.cell.shape ≠ .infinite) (i : Nat) (position : Vector3 α) (k : Direction) :
    (g.place i position).raw g.shape k = (g.rawBin position).along k := by
  have hopen : g.cell.isInfinite = false := by simpa [UnitCell.isInfinite] using periodic
  rw [place, hopen, if_neg Bool.false_ne_true]
  dsimp only
  rw [BinnedAtom.raw, binOf, cellsOf, Vector3.along_zipWith, Vector3.along_zipWith]
  exact ((div_mod_iff (positive k)).1 ⟨rfl, rfl⟩).2

theorem cell_ofPositions (positions : Array (Vector3 α)) (cell : UnitCell α) (cutoff : α) :
    (ofPositions positions cell cutoff).cell = cell := rfl

theorem lengths_of_periodic (positions : Array (Vector3 α)) {cell : UnitCell α} (cutoff : α)
    (periodic : cell.shape ≠ .infinite) :
    (ofPositions positions cell cutoff).lengths = cell.faceDistances := by
  have hopen : cell.isInfinite = false := by simpa [UnitCell.isInfinite] using periodic
  rw [ofPositions, hopen]
  rfl

theorem lengths_of_open (positions : Array (Vector3 α)) {cell : UnitCell α} (cutoff : α)
    (hopen : cell.shape = .infinite) :
    (ofPositions positions cell cutoff).lengths = (boundingBox positions cutoff).2 := by
  rw [ofPositions, UnitCell.isInfinite, hopen]
  rfl

theorem shape_ofPositions (positions : Array (Vector3 α)) (cell : UnitCell α) (cutoff : α) :
    (ofPositions positions cell cutoff).shape
      = (binCounts (ofPositions positions cell cutoff).lengths cutoff).map Scalar.toCount := rfl

theorem reach_ofPositions (positions : Array (Vector3 α)) (cell : UnitCell α) (cutoff : α) :
    (ofPositions positions cell cutoff).reach
      = (binCounts (ofPositions positions cell cutoff).lengths cutoff).zipWith
        (reachAlong cell.isInfinite cutoff) (ofPositions positions cell cutoff).lengths := rfl

end Atoms

/-! ### Numbers of bins -/

section Counts

variable {α : Type} [ExactField α] {lengths : Vector3 α} {cutoff : α}

/-- A number of bins is a whole number, and not zero. -/
theorem atLeastOne_eq (x : α) :
    atLeastOne x = ((max (ExactField.wholePart x) 1 : Int) : α) := by
  rw [atLeastOne, ExactField.greatest_eq, ExactField.one_eq, Int.cast_max, Int.cast_one]
  rfl

theorem atLeastOne_le {x : α} (h : 0 ≤ x) : atLeastOne x ≤ max x 1 := by
  rw [atLeastOne, ExactField.greatest_eq, ExactField.one_eq]
  exact max_le_max_right 1 (ExactField.wholePart_le h)

theorem exists_count (lengths : Vector3 α) (cutoff : α) (k : Direction) :
    ∃ n : Nat, 0 < n ∧ (binCounts lengths cutoff).along k = n := by
  have one (x : α) : ∃ n : Nat, 0 < n ∧ atLeastOne x = n := by
    refine ⟨(max (ExactField.wholePart x) 1).toNat, by omega, ?_⟩
    rw [atLeastOne_eq, ← Int.cast_natCast, Int.toNat_of_nonneg (by omega)]
  unfold binCounts
  dsimp only
  split
  · rw [Vector3.along_map]
    exact one _
  · rw [Vector3.along_map]
    exact one _

/-- The scaling of numbers of bins does not raise them. -/
theorem atLeastOne_mul_le {n scaling : α} (one : 1 ≤ n) (h : scaling ≤ 1) :
    atLeastOne (n * scaling) ≤ n := by
  rcases le_or_gt 0 (n * scaling) with nonneg | neg
  · refine (atLeastOne_le nonneg).trans (max_le ?_ one)
    exact mul_le_of_le_one_right (zero_le_one.trans one) h
  · have small : ExactField.wholePart (n * scaling) ≤ 1 := by
      rw [ExactField.wholePart, if_pos neg, Int.ceil_le, Int.cast_one]
      exact neg.le.trans zero_le_one
    rw [atLeastOne_eq, max_eq_right small, Int.cast_one]
    exact one

/-- There are no more bins than whole cutoffs in the extent of the grid. -/
theorem count_le (wide : ∀ k, cutoff ≤ lengths.along k) (positive : 0 < cutoff) (k : Direction) :
    (binCounts lengths cutoff).along k * cutoff ≤ lengths.along k := by
  rw [← le_div_iff₀ positive]
  have fits (k : Direction) : 1 ≤ lengths.along k / cutoff := (one_le_div₀ positive).2 (wide k)
  have count_one (x : α) : 1 ≤ atLeastOne x := by
    rw [atLeastOne, ExactField.greatest_eq, ExactField.one_eq]
    exact le_max_right _ _
  have before : atLeastOne (lengths.along k / cutoff) ≤ lengths.along k / cutoff :=
    (atLeastOne_le (zero_le_one.trans (fits k))).trans_eq (max_eq_left (fits k))
  unfold binCounts
  dsimp only
  split
  · next many =>
    rw [ExactField.lt_eq_true] at many
    rw [Vector3.along_map, Vector3.along_map]
    refine (atLeastOne_mul_le (count_one _) ?_).trans before
    have limit : (0 : α) < Scalar.ofNat maxBins := by
      rw [ExactField.ofNat_eq]
      exact Nat.cast_pos.2 (by decide)
    have total := limit.trans many
    exact ExactField.cubeRoot_le_one _ (div_pos limit total) ((div_lt_one total).2 many)
  · rw [Vector3.along_map]
    exact before

/-- Shares of whole numbers of bins are rounded as natural numbers are. -/
theorem atLeastOne_div (n s : Nat) : atLeastOne ((n : α) / s) = ((max (n / s) 1 : Nat) : α) := by
  have nonneg : ¬ (n : α) / s < 0 := not_lt_of_ge (div_nonneg n.cast_nonneg s.cast_nonneg)
  rw [atLeastOne_eq, ExactField.wholePart, if_neg nonneg, Int.floor_div_natCast, Int.floor_natCast]
  norm_cast

theorem atLeastOne_natCast {n : Nat} (positive : 0 < n) : atLeastOne (n : α) = n := by
  rw [atLeastOne_eq, ← Int.cast_natCast, ExactField.wholePart_intCast, max_eq_left (by omega)]

section Whole

variable {n : Direction → Nat} (whole : ∀ k, lengths.along k / cutoff = n k)
  (positive : ∀ k, 0 < n k)
include whole positive

/-- Few bins are left as they are. -/
theorem binCounts_of_few (few : n .x * n .y * n .z ≤ maxBins) (k : Direction) :
    (binCounts lengths cutoff).along k = n k := by
  have count (k : Direction) : atLeastOne (lengths.along k / cutoff) = n k := by
    rw [whole, atLeastOne_natCast (positive k)]
  have total : ((n .x * n .y * n .z : Nat) : α) ≤ maxBins := Nat.cast_le.2 few
  push_cast [← count] at total
  unfold binCounts
  dsimp only
  rw [if_neg]
  · rw [Vector3.along_map, count]
  · rw [ExactField.lt_eq_true, ExactField.ofNat_eq, not_lt]
    exact total

/-- Many bins are reduced in proportion, but a direction keeps one bin at least. -/
theorem binCounts_of_many (many : maxBins < n .x * n .y * n .z) {s : Nat}
    (root : ExactField.cubeRoot ((maxBins : α) / (n .x * n .y * n .z : Nat)) = (s : α)⁻¹)
    (k : Direction) : (binCounts lengths cutoff).along k = (max (n k / s) 1 : Nat) := by
  have count (k : Direction) : atLeastOne (lengths.along k / cutoff) = n k := by
    rw [whole, atLeastOne_natCast (positive k)]
  have total : (maxBins : α) < ((n .x * n .y * n .z : Nat) : α) := Nat.cast_lt.2 many
  push_cast [← count] at total root
  unfold binCounts
  dsimp only
  rw [if_pos]
  · rw [Vector3.along_map, Vector3.along_map, count, ExactField.ofNat_eq, ← atLeastOne_div,
      div_eq_mul_inv (n k : α), ← root]
    rfl
  · rw [ExactField.lt_eq_true, ExactField.ofNat_eq]
    exact total

end Whole

end Counts

/-! ### Grids that can be stored -/

section Stored

variable {α : Type} [ExactField α] (positions : Array (Vector3 α)) (cell : UnitCell α) (cutoff : α)

theorem toCount_natCast (n : Nat) : Scalar.toCount (n : α) = min n 0xFFFFFFFFFFFFFFFF := by
  rw [Scalar.toCount, ← Int.cast_natCast, ExactField.toIntWithin_intCast]
  omega

theorem shape_pos (k : Direction) : 0 < (ofPositions positions cell cutoff).shape.along k := by
  obtain ⟨n, positive, hn⟩ := exists_count (ofPositions positions cell cutoff).lengths cutoff k
  rw [shape_ofPositions, Vector3.along_map, hn, toCount_natCast]
  omega

theorem along_le_total {shape : Vector3 Nat} (positive : ∀ k, 0 < shape.along k) (k : Direction) :
    shape.along k ≤ shape.x * shape.y * shape.z := by
  have hx : 0 < shape.x := positive .x
  have hy : 0 < shape.y := positive .y
  have hz : 0 < shape.z := positive .z
  cases k with
  | x => exact (Nat.le_mul_of_pos_right _ hy).trans (Nat.le_mul_of_pos_right _ hz)
  | y => exact (Nat.le_mul_of_pos_left _ hx).trans (Nat.le_mul_of_pos_right _ hz)
  | z => exact Nat.le_mul_of_pos_left _ (Nat.mul_pos hx hy)

variable {positions cell cutoff}

/-- The numbers of bins of a grid that can be stored are the computed ones. -/
theorem count_eq_shape (stored : (ofPositions positions cell cutoff).total ≤ maxStoredBins)
    (k : Direction) : (binCounts (ofPositions positions cell cutoff).lengths cutoff).along k
      = (ofPositions positions cell cutoff).shape.along k := by
  obtain ⟨n, -, hn⟩ := exists_count (ofPositions positions cell cutoff).lengths cutoff k
  have few := (along_le_total (shape_pos positions cell cutoff) k).trans stored
  have bound : maxStoredBins < 0xFFFFFFFFFFFFFFFF := by decide
  have shape : (ofPositions positions cell cutoff).shape.along k = min n 0xFFFFFFFFFFFFFFFF := by
    rw [shape_ofPositions, Vector3.along_map, hn, toCount_natCast]
  rw [hn, shape, Nat.min_eq_left (by omega)]

end Stored

end Atomistic.BinGrid
