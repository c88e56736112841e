import Atomistic.Proofs.GridReach
import Atomistic.Proofs.ImageGroups
import Atomistic.Proofs.NeighborWarnings

/-!
# The search for neighbors

A search that is not given up finds the candidates that are closer than the cutoff, and keeps the
closest image of each pair. What is found is described here for any cell, from the candidates of its
grid; what the candidates are depends on the kind of cell.
-/

namespace Atomistic.NeighborsList

variable {α : Type}

/-- The vector between two atoms. -/
def separation [Scalar α] (positions : Array (Vector3 α)) (i j : Nat) : Vector3 α :=
  positions.getD j Vector3.zero - positions.getD i Vector3.zero

theorem separation_eq [Scalar α] {positions : Array (Vector3 α)} {i j : Nat}
    (hi : i < positions.size) (hj : j < positions.size) :
    separation positions i j = positions[j] - positions[i] := by
  rw [separation, Array.getD_eq_getD_getElem?, Array.getD_eq_getD_getElem?,
    Array.getElem?_eq_getElem hi, Array.getElem?_eq_getElem hj]
  rfl

section Search

variable [Scalar α] (positions : Array (Vector3 α)) (cell : UnitCell α) (cutoff : α)

/-- The grid in which neighbors are looked for. -/
def grid : BinGrid α := BinGrid.ofPositions positions cell cutoff

/-- The candidates of the grid. -/
def candidates : List Candidate :=
  (grid positions cell cutoff).candidates ((grid positions cell cutoff).placeAll positions)

/-- The images closer than the cutoff, in the order in which they are met. -/
def found : List (Pair α) :=
  (candidates positions cell cutoff).filterMap (pairWithin positions cell cutoff)

variable {positions cell cutoff}

/-- A grid with too many bins is not stored. -/
theorem imagesWithin_of_total {build : Build}
    (h : maxStoredBins < (grid positions cell cutoff).total) :
    imagesWithin build positions cell cutoff = .error (.panic .unspecified) := by
  dsimp only [imagesWithin]
  exact if_pos h

/-- A grid with too long a row of bins is not searched. -/
theorem imagesWithin_of_not_fitsWords (h : (grid positions cell cutoff).fitsWords = false) :
    imagesWithin .checked positions cell cutoff = .error (.panic .unspecified) := by
  dsimp only [imagesWithin, BinGrid.candidatesIn, BinGrid.checkedCandidates]
  rw [← grid, h, Bool.false_and, if_neg Bool.false_ne_true]
  split <;> rfl

/-- Otherwise all images are found. -/
theorem imagesWithin_of_fitsWords (stored : (grid positions cell cutoff).total ≤ maxStoredBins)
    (looked : (grid positions cell cutoff).fitsWords = true)
    (shifts : ∀ e ∈ (grid positions cell cutoff).encounters
      ((grid positions cell cutoff).placeAll positions), e.fitsWords = true) :
    imagesWithin .checked positions cell cutoff = .ok (found positions cell cutoff) := by
  refine imagesWithin_eq_ok_iff.2 ⟨stored, candidates positions cell cutoff, ?_, rfl⟩
  rw [BinGrid.candidatesIn, BinGrid.checkedCandidates, ← grid, looked, Bool.true_and,
    if_pos (List.all_eq_true.2 shifts)]
  rfl

/-- A search that ends was possible, and met all that is found. -/
theorem eq_found_of_imagesWithin {met : List (Pair α)}
    (h : imagesWithin .checked positions cell cutoff = .ok met) :
    (grid positions cell cutoff).total ≤ maxStoredBins ∧ met = found positions cell cutoff := by
  obtain ⟨stored, met, hmet, rfl⟩ := imagesWithin_eq_ok_iff.1 h
  rw [BinGrid.candidatesIn, BinGrid.checkedCandidates] at hmet
  split at hmet
  · cases hmet
    exact ⟨stored, rfl⟩
  · cases hmet

end Search

variable [ExactField α] {positions : Array (Vector3 α)} {cell : UnitCell α} {cutoff : α}

/-- When the bins can not be stored there is no neighbor list. -/
theorem outcome_new_of_total (build : Build) (positive : 0 < cutoff)
    (many : maxStoredBins < (grid positions cell cutoff).total) :
    ((new build positions cell cutoff).outcome ()).1 = .error (.panic .unspecified) :=
  outcome_new_of_error (ExactField.isPositiveFinite_eq positive) (imagesWithin_of_total many)

/-! ### Images that are found -/

theorem pairWithin_eq (positive : 0 < cutoff) (c : Candidate) :
    pairWithin positions cell cutoff c
      = if (candidateVector positions cell c).norm < cutoff
        then some ⟨c.first, c.second, candidateVector positions cell c⟩ else none := by
  have within := Vector3.norm2_lt_iff (v := candidateVector positions cell c) positive.le
  rw [pairWithin]
  by_cases h : (candidateVector positions cell c).norm < cutoff
  · rw [if_pos h, if_neg]
    rw [ExactField.le_eq_true, not_le]
    exact within.2 h
  · rw [if_neg h, if_pos]
    rw [ExactField.le_eq_true, ← not_lt]
    exact fun less => h (within.1 less)

theorem mem_found (positive : 0 < cutoff) {p : Pair α} :
    p ∈ found positions cell cutoff ↔ ∃ c ∈ candidates positions cell cutoff,
      (candidateVector positions cell c).norm < cutoff ∧
      (⟨c.first, c.second, candidateVector positions cell c⟩ : Pair α) = p := by
  rw [found, List.mem_filterMap]
  refine exists_congr fun c => and_congr_right fun _ => ?_
  rw [pairWithin_eq positive]
  split
  · next close => rw [Option.some.injEq, and_iff_right close]
  · next far =>
    refine ⟨nofun, fun h => absurd h.1 far⟩

/-- The candidates for a pair of atoms that are closer than the cutoff. -/
def closeCandidates (positions : Array (Vector3 α)) (cell : UnitCell α) (cutoff : α)
    (i j : Nat) : List Candidate :=
  (candidates positions cell cutoff).filter fun c => c.first = i ∧ c.second = j ∧
    (candidateVector positions cell c).norm < cutoff

theorem mem_closeCandidates {i j : Nat} {c : Candidate} :
    c ∈ closeCandidates positions cell cutoff i j ↔ c ∈ candidates positions cell cutoff ∧
      c.first = i ∧ c.second = j ∧ (candidateVector positions cell c).norm < cutoff := by
  rw [closeCandidates, List.mem_filter, decide_eq_true_eq]

/-- The images of one pair are counted among the candidates. -/
theorem length_closeCandidates (positive : 0 < cutoff) (i j : Nat) :
    (closeCandidates positions cell cutoff i j).length
      = ((found positions cell cutoff).filter fun p => p.key = toLex (i, j)).length := by
  symm
  rw [closeCandidates, ← List.countP_eq_length_filter, ← List.countP_eq_length_filter, found,
    List.countP_filterMap]
  refine List.countP_congr fun c _ => ?_
  rw [pairWithin_eq positive]
  split
  · next close => simp [Pair.key, Pair.atoms, close]
  · next far => simp [far]

theorem shape_pos (k : Direction) : 0 < (grid positions cell cutoff).shape.along k :=
  BinGrid.shape_pos positions cell cutoff k

theorem holds_atoms : (grid positions cell cutoff).Holds
    ((grid positions cell cutoff).placeAll positions) :=
  BinGrid.holds_placeAll shape_pos

theorem nodup_candidates : (candidates positions cell cutoff).Nodup :=
  BinGrid.nodup_candidates holds_atoms shape_pos

/-- Candidates are for two different atoms of the system. -/
theorem lt_of_mem_candidates {c : Candidate} (h : c ∈ candidates positions cell cutoff) :
    c.first < c.second ∧ c.second < positions.size := by
  obtain ⟨a, -, b, hb, -, hsecond, less, -⟩ :=
    (BinGrid.mem_candidates holds_atoms shape_pos).1 h
  obtain ⟨j, hj, rfl⟩ := BinGrid.mem_placeAll.1 hb
  rw [BinGrid.place_atom] at hsecond
  exact ⟨less, hsecond ▸ hj⟩

/-- Atoms in bins within reach are a candidate. -/
theorem mem_candidates_of_near {i j : Nat} (less : i < j) (hj : j < positions.size)
    {n : Vector3 Int}
    (near : (grid positions cell cutoff).Near
      (((grid positions cell cutoff).place i positions[i]).raw (grid positions cell cutoff).shape)
      fun k => ((grid positions cell cutoff).place j positions[j]).raw
          (grid positions cell cutoff).shape k
        + n.along k * (grid positions cell cutoff).shape.along k)
    (home : cell.shape = .infinite → ∀ k, n.along k = 0) :
    ⟨i, j, n⟩ ∈ candidates positions cell cutoff := by
  refine (BinGrid.mem_candidates holds_atoms shape_pos).2 ?_
  refine ⟨_, BinGrid.mem_placeAll.2 ⟨i, less.trans hj, rfl⟩, _, BinGrid.mem_placeAll.2 ⟨j, hj, rfl⟩,
    BinGrid.place_atom _ _, BinGrid.place_atom _ _, less, near, home⟩

/-! ### Pairs that are kept -/

/-- The neighbor list holds the closest image of every pair that was found. -/
theorem exists_of_found {p : Pair α} (h : p ∈ found positions cell cutoff) :
    ∃ q ∈ (gather (found positions cell cutoff)).map (·.closest), q.key = p.key := by
  obtain ⟨images, hmem, same⟩ := exists_mem_gather h
  exact ⟨images.closest, List.mem_map.2 ⟨images, hmem, rfl⟩, same⟩

theorem found_of_mem {p : Pair α}
    (h : p ∈ (gather (found positions cell cutoff)).map (·.closest)) :
    p ∈ found positions cell cutoff ∧
      ∀ q ∈ found positions cell cutoff, q.key = p.key → p.vector.norm ≤ q.vector.norm := by
  obtain ⟨images, hmem, rfl⟩ := List.mem_map.1 h
  refine ⟨closest_mem_of_gather hmem, fun q hq same => ?_⟩
  exact Vector3.norm2_le_iff.1 (closest_le_of_gather hmem hq same)

/-- A pair has a warning exactly when several of its candidates are close. -/
theorem severalImages_mem_records (positive : 0 < cutoff) {texts : List (List String)}
    (all : texts.Perm ((gather (found positions cell cutoff)).map Images.warnings))
    {count i j : Nat} :
    (⟨.warn, .neighbors, severalImages count i j⟩ : Record) ∈
      texts.flatten.map (fun text => ⟨.warn, .neighbors, text⟩) ↔
      1 < count ∧ count = (closeCandidates positions cell cutoff i j).length := by
  rw [List.mem_map, length_closeCandidates positive]
  constructor
  · rintro ⟨text, htext, record⟩
    obtain rfl : text = severalImages count i j := (Record.mk.inj record).2.2
    rw [all.flatten.mem_iff, ← List.flatMap_def] at htext
    obtain ⟨images, hmem, hwarning⟩ := List.mem_flatMap.1 htext
    obtain ⟨one, rfl, rfl, rfl⟩ := severalImages_mem_warnings.1 hwarning
    exact ⟨one, count_of_gather hmem⟩
  · rintro ⟨one, hcount⟩
    refine ⟨severalImages count i j, ?_, rfl⟩
    rw [all.flatten.mem_iff, ← List.flatMap_def, List.mem_flatMap]
    obtain ⟨p, hp⟩ := List.exists_mem_of_length_pos (hcount ▸ Nat.zero_lt_of_lt one)
    rw [List.mem_filter, decide_eq_true_eq] at hp
    obtain ⟨images, hmem, same⟩ := exists_mem_gather hp.1
    have atoms := same.trans hp.2
    rw [Pair.key, toLex_inj, Pair.atoms, Prod.mk.injEq] at atoms
    refine ⟨images, hmem, severalImages_mem_warnings.2 ⟨one, ?_, atoms.1.symm, atoms.2.symm⟩⟩
    rw [count_of_gather hmem, hcount, same, hp.2]

end Atomistic.NeighborsList
