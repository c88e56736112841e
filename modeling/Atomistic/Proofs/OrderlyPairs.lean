import Atomistic.Proofs.PeriodicNeighbors

/-!
# Orderly pairs

What a neighbor list promises in any arithmetic, however its results are rounded: pairs in strict
order, the atoms of each pair in order as well, no vector as long as the cutoff, and for every atom
the pairs that contain it. Images are met in no useful order, and those of one pair far apart; that
their closest ones are the pairs, sorted and listed for their atoms, holds after any search, also
after one that went on with sums that wrapped around.
-/

namespace Atomistic.NeighborsList

variable {α : Type} [Scalar α] {build : Build} {positions : Array (Vector3 α)} {cell : UnitCell α} {cutoff : α}

/-- A neighbor list for a number of atoms and a cutoff keeps its promises. -/
structure Orderly (size : Nat) (cutoff : α) (n : NeighborsList α) : Prop where
  cutoff_eq : n.cutoff = cutoff
  increasing : n.pairs.Pairwise fun p q => p.key < q.key
  joins : ∀ p ∈ n.pairs, p.first < p.second ∧ p.second < size
  within : ∀ p ∈ n.pairs, Scalar.le (cutoff * cutoff) p.vector.norm2 = false
  size_eq : n.byAtom.size = size
  each : ∀ a (h : a < n.byAtom.size),
    n.byAtom[a].toList = n.pairs.filter fun p => p.first = a ∨ p.second = a
  twice : ∀ p ∈ n.pairs, {a | ∃ h : a < n.byAtom.size, p ∈ n.byAtom[a]} = {p.first, p.second} ∧
    p.first ≠ p.second

/-- Whatever the positions, the cell and the cutoff are, a neighbor list that is given is orderly,
in any build. -/
theorem orderly_of_new {n : NeighborsList α} {trace : Trace}
    (run : (new build positions cell cutoff).outcome () = (.ok n, (), trace)) :
    Orderly positions.size cutoff n := by
  obtain ⟨-, met, hmet, cutoff_eq, pairs, filled⟩ := images_of_outcome_new run
  have joins : ∀ p ∈ n.pairs, Joins positions.size p := pairs ▸ joins_of_mem_gather hmet
  constructor
  case cutoff_eq => exact cutoff_eq
  case increasing => exact pairs ▸ List.pairwise_map.2 (pairwise_gather met)
  case joins => exact joins
  case within =>
    intro p hp
    rw [pairs, List.mem_map] at hp
    obtain ⟨images, hmem, rfl⟩ := hp
    exact (joins_of_mem_imagesWithin hmet (closest_mem_of_gather hmem)).2
  case size_eq => exact filled.size_eq
  case each =>
    intro a ha
    rw [filled.each a ha]
    refine List.filter_congr fun p _ => ?_
    rw [Pair.contains, Bool.decide_or]
    rfl
  case twice => exact fun p hp => ⟨Set.ext (filled.mem_iff joins hp), (joins p hp).1.ne⟩

/-- In a cube of side 1, two atoms at distance 1/2 are a pair for the cutoff 1, in the lists of
both. -/
theorem orderly_of_new_cube : ∃ n trace, (new .checked cornerAtoms (.box ⟨1, 1, 1⟩) 1).outcome ()
      = (.ok n, (), trace) ∧ (∃ p ∈ n.pairs, p.atoms = (0, 1)) ∧ Orderly 2 1 n := by
  have cube := divided_cube
  have lattice := UnitCell.lattice_box cube.lengths_pos
  have stored : (grid cornerAtoms (.box ⟨1, 1, 1⟩) 1).total ≤ maxStoredBins := by
    rw [cube.total_eq]
    decide
  obtain ⟨lists, texts, trace, run, -⟩ :=
    outcome_new_of_fitsWords .checked one_pos stored cube.wordsFit.looked cube.wordsFit.shifts
  have close : (UnitCell.box ⟨1, 1, 1⟩).translation (Vector3.replicate 0)
      ∈ closeTranslations cornerAtoms (.box ⟨1, 1, 1⟩) 1 0 1 := by
    have vector : separation cornerAtoms 0 1
        + (UnitCell.box ⟨1, 1, 1⟩).translation (Vector3.replicate 0) = ⟨(2 : Nat)⁻¹, 0, 0⟩ := by
      refine Vector3.ext_along fun k => ?_
      rw [separation_eq Nat.zero_lt_two Nat.one_lt_two, Vector3.along_add, Vector3.along_sub,
        UnitCell.translation_along]
      cases k <;> norm_num [cornerAtoms, Vector3.along, Vector3.replicate]
    refine ⟨⟨_, rfl⟩, (Vector3.norm2_lt_iff zero_le_one).1 ?_⟩
    rw [vector, Vector3.norm2, Vector3.dot_eq]
    norm_num
  obtain ⟨p, hp, atoms⟩ := exists_of_found
    (mem_found_of_close lattice stored cube.casts one_pos Nat.zero_lt_one Nat.one_lt_two close)
  exact ⟨_, trace, run, ⟨p, hp, toLex_inj.1 atoms⟩, orderly_of_new run⟩

end Atomistic.NeighborsList
