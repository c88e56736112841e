import Atomistic.Proofs.RealScalar
import Atomistic.Proofs.WrappedBins
import Mathlib.Data.Set.Card

/-!
# Neighbors in periodic systems

The neighbor list of a periodic system is the one that trying all translations of the lattice would
give. A pair is in it exactly when some translation brings its atoms closer than the cutoff, with the
shortest vector that a translation gives; and users are told how many translations do so, if there
are several. That is so wherever the atoms are, for every cutoff and every shape of the cell, as long
as the grid of bins can be stored. It can not be stored when too many bins are left in it, since
directions with a single bin do not take part in the reduction of their number.
-/

namespace Atomistic.NeighborsList

variable {α : Type} [ExactField α] {positions : Array (Vector3 α)} {cell : UnitCell α} {cutoff : α}

/-! ### What is found -/

/-- The translations that bring the second atom of a pair closer than the cutoff to the first. -/
def closeTranslations (positions : Array (Vector3 α)) (cell : UnitCell α) (cutoff : α)
    (i j : Nat) : Set (Vector3 α) :=
  {t | cell.IsTranslation t ∧ (separation positions i j + t).norm < cutoff}

theorem candidateVector_of_periodic (lattice : cell.Lattice) (c : Candidate) :
    candidateVector positions cell c
      = separation positions c.first c.second + cell.translation c.shift := by
  have periodic : cell.isInfinite = false := by simpa [UnitCell.isInfinite] using lattice.periodic
  rw [candidateVector]
  dsimp only
  rw [periodic, if_neg Bool.false_ne_true, lattice.cartesian_ofInt]
  rfl

/-- The whole numbers on the way to a neighbor list are those that 32-bit integers hold. -/
structure WordsFit (positions : Array (Vector3 α)) (cell : UnitCell α) (cutoff : α) : Prop where
  casts : (grid positions cell cutoff).CastsFit positions cutoff
  looked : (grid positions cell cutoff).fitsWords = true
  shifts : ∀ e ∈ (grid positions cell cutoff).encounters
    ((grid positions cell cutoff).placeAll positions), e.fitsWords = true

section Found

variable (lattice : cell.Lattice) (stored : (grid positions cell cutoff).total ≤ maxStoredBins)
  (fits : (grid positions cell cutoff).CastsFit positions cutoff)
include lattice stored fits

/-- Every close translation is that of a candidate. -/
theorem mem_candidates_of_close {i j : Nat} (less : i < j) (hj : j < positions.size)
    {n : Vector3 Int} (close : (separation positions i j + cell.translation n).norm < cutoff) :
    ⟨i, j, n⟩ ∈ candidates positions cell cutoff := by
  have hi : i < positions.size := less.trans hj
  rw [separation_eq hi hj] at close
  refine mem_candidates_of_near less hj ?_ fun h => absurd h lattice.periodic
  exact BinGrid.near_of_periodic lattice rfl stored fits hi hj close

omit stored fits in
/-- Candidates for one pair of atoms differ by their translations. -/
theorem nodup_translations (i j : Nat) : ((closeCandidates positions cell cutoff i j).map
    fun c => cell.translation c.shift).Nodup := by
  refine List.Nodup.map_on (fun c hc c' hc' same => ?_) (nodup_candidates.filter _)
  obtain ⟨-, first, second, -⟩ := mem_closeCandidates.1 hc
  obtain ⟨-, first', second', -⟩ := mem_closeCandidates.1 hc'
  cases c
  cases c'
  exact congr (congr (congrArg Candidate.mk (first.trans first'.symm))
    (second.trans second'.symm)) (lattice.translation_injective same)

theorem mem_closeTranslations {i j : Nat} (less : i < j) (hj : j < positions.size)
    {t : Vector3 α} : t ∈ closeTranslations positions cell cutoff i j ↔
      t ∈ (closeCandidates positions cell cutoff i j).map fun c => cell.translation c.shift := by
  rw [List.mem_map]
  constructor
  · rintro ⟨⟨n, rfl⟩, short⟩
    refine ⟨⟨i, j, n⟩, mem_closeCandidates.2 ⟨?_, rfl, rfl, ?_⟩, rfl⟩
    · exact mem_candidates_of_close lattice stored fits less hj short
    · rw [candidateVector_of_periodic lattice]
      exact short
  · rintro ⟨c, hc, rfl⟩
    obtain ⟨-, rfl, rfl, short⟩ := mem_closeCandidates.1 hc
    rw [candidateVector_of_periodic lattice] at short
    exact ⟨⟨c.shift, rfl⟩, short⟩

/-- The close candidates for a pair are as many as its close translations. -/
theorem ncard_closeTranslations {i j : Nat} (less : i < j) (hj : j < positions.size) :
    (closeTranslations positions cell cutoff i j).Finite ∧
      (closeTranslations positions cell cutoff i j).ncard
        = (closeCandidates positions cell cutoff i j).length := by
  classical
  have all : closeTranslations positions cell cutoff i j
      = ↑((closeCandidates positions cell cutoff i j).map
        fun c => cell.translation c.shift).toFinset := by
    ext t
    rw [Finset.mem_coe, List.mem_toFinset, mem_closeTranslations lattice stored fits less hj]
  rw [all]
  refine ⟨Finset.finite_toSet _, ?_⟩
  rw [Set.ncard_coe_finset, List.toFinset_card_of_nodup (nodup_translations lattice i j),
    List.length_map]

/-- A pair is found for each of its close translations. -/
theorem mem_found_of_close (positive : 0 < cutoff) {i j : Nat} (less : i < j)
    (hj : j < positions.size) {t : Vector3 α}
    (h : t ∈ closeTranslations positions cell cutoff i j) :
    ⟨i, j, separation positions i j + t⟩ ∈ found positions cell cutoff := by
  obtain ⟨⟨n, rfl⟩, short⟩ := h
  refine (mem_found positive).2 ⟨⟨i, j, n⟩, ?_, ?_, ?_⟩
  · exact mem_candidates_of_close lattice stored fits less hj short
  · rw [candidateVector_of_periodic lattice]
    exact short
  · rw [candidateVector_of_periodic lattice]

omit stored fits in
/-- Whatever is found is an image of a pair of atoms, under a close translation. -/
theorem exists_of_mem_found (positive : 0 < cutoff) {p : Pair α}
    (h : p ∈ found positions cell cutoff) : p.first < p.second ∧ p.second < positions.size ∧
      ∃ t ∈ closeTranslations positions cell cutoff p.first p.second,
        p.vector = separation positions p.first p.second + t := by
  obtain ⟨c, hc, short, rfl⟩ := (mem_found positive).1 h
  obtain ⟨less, hj⟩ := lt_of_mem_candidates hc
  rw [candidateVector_of_periodic lattice] at short ⊢
  exact ⟨less, hj, cell.translation c.shift, ⟨⟨c.shift, rfl⟩, short⟩, rfl⟩

end Found

/-! ### Agreement with all translations -/

/-- A neighbor list and the records left with it are those that trying all translations gives. -/
structure AgreesWithImages (positions : Array (Vector3 α)) (cell : UnitCell α) (cutoff : α)
    (n : NeighborsList α) (records : List Record) : Prop where
  cutoff_eq : n.cutoff = cutoff
  lists : Filled positions.size n.pairs n.byAtom
  ordered : n.pairs.Pairwise fun p q => p.key < q.key
  listed : ∀ i j, (∃ p ∈ n.pairs, p.first = i ∧ p.second = j) ↔
    i < j ∧ j < positions.size ∧ (closeTranslations positions cell cutoff i j).Nonempty
  closest : ∀ p ∈ n.pairs, (∃ t ∈ closeTranslations positions cell cutoff p.first p.second,
      p.vector = separation positions p.first p.second + t) ∧
    ∀ t, cell.IsTranslation t →
      p.vector.norm ≤ (separation positions p.first p.second + t).norm
  finite : ∀ i j, i < j → j < positions.size →
    (closeTranslations positions cell cutoff i j).Finite
  warned : ∀ count i j, ⟨.warn, .neighbors, severalImages count i j⟩ ∈ records ↔
    i < j ∧ j < positions.size ∧ 1 < count ∧
      count = (closeTranslations positions cell cutoff i j).ncard

theorem agreesWithImages_of_gather (lattice : cell.Lattice) (positive : 0 < cutoff)
    (stored : (grid positions cell cutoff).total ≤ maxStoredBins)
    (fits : (grid positions cell cutoff).CastsFit positions cutoff)
    {lists : Array (Array (Pair α))} {texts : List (List String)}
    (filled : Filled positions.size ((gather (found positions cell cutoff)).map (·.closest)) lists)
    (all : texts.Perm ((gather (found positions cell cutoff)).map Images.warnings)) :
    AgreesWithImages positions cell cutoff
      ⟨cutoff, (gather (found positions cell cutoff)).map (·.closest), lists⟩
      (texts.flatten.map fun text => ⟨.warn, .neighbors, text⟩) where
  cutoff_eq := rfl
  lists := filled
  ordered := List.pairwise_map.2 (pairwise_gather _)
  listed := by
    intro i j
    constructor
    · rintro ⟨p, hp, rfl, rfl⟩
      obtain ⟨less, hj, t, ht, -⟩ := exists_of_mem_found lattice positive (found_of_mem hp).1
      exact ⟨less, hj, t, ht⟩
    · rintro ⟨less, hj, t, ht⟩
      obtain ⟨q, hq, same⟩ :=
        exists_of_found (mem_found_of_close lattice stored fits positive less hj ht)
      rw [Pair.key, Pair.key, toLex_inj, Pair.atoms, Pair.atoms, Prod.mk.injEq] at same
      exact ⟨q, hq, same⟩
  closest := by
    intro p hp
    obtain ⟨hfound, least⟩ := found_of_mem hp
    obtain ⟨less, hj, t, ht, vector⟩ := exists_of_mem_found lattice positive hfound
    refine ⟨⟨t, ht, vector⟩, fun t' ht' => ?_⟩
    -- an image that is not close was not looked at, but the pair has one that is
    rcases lt_or_ge (separation positions p.first p.second + t').norm cutoff with short | long
    · exact least _ (mem_found_of_close lattice stored fits positive less hj ⟨ht', short⟩) rfl
    · rw [vector]
      exact (ht.2.trans_le long).le
  finite := fun i j less hj => (ncard_closeTranslations lattice stored fits less hj).1
  warned := by
    intro count i j
    rw [severalImages_mem_records positive all]
    constructor
    · rintro ⟨one, rfl⟩
      obtain ⟨c, hc⟩ := List.exists_mem_of_length_pos (Nat.zero_lt_of_lt one)
      obtain ⟨met, rfl, rfl, -⟩ := mem_closeCandidates.1 hc
      obtain ⟨less, hj⟩ := lt_of_mem_candidates met
      exact ⟨less, hj, one, (ncard_closeTranslations lattice stored fits less hj).2.symm⟩
    · rintro ⟨less, hj, one, rfl⟩
      exact ⟨one, (ncard_closeTranslations lattice stored fits less hj).2⟩

/-- In any build, the neighbor list of a periodic system agrees with trying all translations of the
lattice, and is given up exactly when its grid has too many bins to be stored. -/
theorem agreesWithImages_of_periodic (build : Build) (built : cell.Built) (periodic : cell.shape ≠ .infinite)
    (aligned : cell.shape = .orthorhombic → ∀ x ∈ cell.matrix.offDiagonal, x = 0)
    (positive : 0 < cutoff) (fits : WordsFit positions cell cutoff) :
    ((grid positions cell cutoff).total ≤ maxStoredBins → ∃ n trace,
      (new build positions cell cutoff).outcome () = (.ok n, (), trace) ∧
      AgreesWithImages positions cell cutoff n trace.records) ∧
    (maxStoredBins < (grid positions cell cutoff).total →
      ((new build positions cell cutoff).outcome ()).1 = .error (.panic .unspecified)) := by
  constructor
  · intro stored
    have lattice := built.lattice periodic aligned
    obtain ⟨lists, texts, trace, run, filled, all, records⟩ :=
      outcome_new_of_fitsWords build positive stored fits.looked fits.shifts
    refine ⟨_, trace, run, ?_⟩
    rw [records]
    exact agreesWithImages_of_gather lattice positive stored fits.casts filled all
  · exact outcome_new_of_total build positive

/-! ### Two atoms in a box -/

/-- Two atoms close to a corner of the cell. -/
noncomputable def cornerAtoms : Array (Vector3 ℝ) := #[⟨0, 0, 0⟩, ⟨(2 : Nat)⁻¹, 0, 0⟩]

/-- The sides of a box, and the numbers of bins as wide as the cutoff 1 that it is divided into. -/
structure Divided (lengths : Vector3 ℝ) (n : Direction → Nat) : Prop where
  large : ∀ k, 1 ≤ lengths.along k
  count : ∀ k, (BinGrid.binCounts lengths 1).along k = n k
  positive : ∀ k, 0 < n k
  small : ∀ k, n k < 0x80000000
  wide : ∀ k, (n k : ℝ) ≤ lengths.along k

namespace Divided

variable {lengths : Vector3 ℝ} {n : Direction → Nat} (h : Divided lengths n)
include h

theorem lengths_pos (k : Direction) : 0 < lengths.along k := zero_lt_one.trans_le (h.large k)

theorem lengths_eq : (grid cornerAtoms (.box lengths) 1).lengths = lengths := by
  have periodic : (UnitCell.box lengths).shape ≠ .infinite := nofun
  rw [grid, BinGrid.lengths_of_periodic _ _ periodic]
  exact UnitCell.faceDistances_box h.lengths_pos

theorem shape_eq (k : Direction) : (grid cornerAtoms (.box lengths) 1).shape.along k = n k := by
  rw [grid, BinGrid.shape_ofPositions, Vector3.along_map, ← grid, h.lengths_eq, h.count,
    BinGrid.toCount_natCast]
  have small := h.small k
  omega

theorem ceil_eq (k : Direction) : ⌈1 * (n k : ℝ) / lengths.along k⌉ = 1 := by
  have bins : (0 : ℝ) < n k := Nat.cast_pos.2 (h.positive k)
  rw [Int.ceil_eq_iff, one_mul, Int.cast_one, sub_self, div_le_one (h.lengths_pos k)]
  exact ⟨div_pos bins (h.lengths_pos k), h.wide k⟩

theorem reach_eq (k : Direction) : (grid cornerAtoms (.box lengths) 1).reach.along k = 1 := by
  have periodic : (UnitCell.box lengths).isInfinite = false := rfl
  have cast : Scalar.ceil (1 * (n k : ℝ) / lengths.along k) = ((1 : Int) : ℝ) :=
    congrArg Int.cast (h.ceil_eq k)
  rw [grid, BinGrid.reach_ofPositions, Vector3.along_zipWith, ← grid, h.lengths_eq, h.count,
    BinGrid.reachAlong, periodic, if_neg Bool.false_ne_true, cast,
    BinGrid.toInt32_intCast (by decide)]
  rfl

/-- Both atoms are in the first bin. -/
theorem floor_eq {i : Nat} (hi : i < cornerAtoms.size) (k : Direction) :
    ⌊((UnitCell.box lengths).fractional cornerAtoms[i]).along k
      * (grid cornerAtoms (.box lengths) 1).shape.along k⌋ = 0 := by
  have near : 0 ≤ cornerAtoms[i].along k ∧ cornerAtoms[i].along k < 1 := by
    have cases_i : i = 0 ∨ i = 1 := by
      have size : cornerAtoms.size = 2 := rfl
      omega
    rcases cases_i with rfl | rfl <;> cases k <;> norm_num [cornerAtoms, Vector3.along]
  have bins : (0 : ℝ) < n k := Nat.cast_pos.2 (h.positive k)
  have share : (n k : ℝ) / lengths.along k ≤ 1 := (div_le_one (h.lengths_pos k)).2 (h.wide k)
  rw [UnitCell.fractional_box, h.shape_eq, Int.floor_eq_zero_iff, div_mul_eq_mul_div, mul_div_assoc]
  constructor
  · exact mul_nonneg near.1 (div_pos bins (h.lengths_pos k)).le
  · exact (mul_le_of_le_one_right near.1 share).trans_lt near.2

theorem casts : (grid cornerAtoms (.box lengths) 1).CastsFit cornerAtoms 1 where
  bins := by
    intro i hi k
    have first := h.floor_eq hi k
    rw [grid, BinGrid.cell_ofPositions, ← grid, first]
    rfl
  reach := by
    intro k
    rw [h.lengths_eq, h.shape_eq, h.ceil_eq]
    rfl

theorem place_eq {a : BinnedAtom}
    (ha : a ∈ (grid cornerAtoms (.box lengths) 1).placeAll cornerAtoms) (k : Direction) :
    a.bin.along k = 0 ∧ a.shift.along k = 0 := by
  have periodic : (grid cornerAtoms (.box lengths) 1).cell.shape ≠ .infinite := nofun
  have inside := holds_atoms.inside a ha k
  obtain ⟨i, hi, rfl⟩ := BinGrid.mem_placeAll.1 ha
  have raw := BinGrid.raw_place_of_periodic shape_pos periodic i cornerAtoms[i] k
  have first : ((grid cornerAtoms (.box lengths) 1).rawBin cornerAtoms[i]).along k = 0 :=
    (h.casts.rawBin_along hi k).trans (h.floor_eq hi k)
  obtain ⟨hbin, hshift⟩ := (BinGrid.div_mod_iff (shape_pos k)).2 ⟨inside, raw.trans first⟩
  rw [Int.zero_emod] at hbin
  rw [Int.zero_ediv] at hshift
  exact ⟨hbin.symm, hshift.symm⟩

theorem wordsFit : WordsFit cornerAtoms (.box lengths) 1 where
  casts := h.casts
  looked := by
    rw [BinGrid.fitsWords_iff]
    intro k
    have positive := h.positive k
    have small := h.small k
    rw [h.shape_eq, h.reach_eq, BinGrid.isWord_iff]
    omega
  shifts := by
    intro e he
    rw [BinGrid.Encounter.fitsWords_iff]
    intro k
    obtain ⟨here, there, -, near, -⟩ := (holds_atoms.mem_encounters shape_pos).1 he
    have bins := h.positive k
    have reach := near k
    rw [BinGrid.Encounter.offset, (h.place_eq here k).1, (h.place_eq there k).1, h.shape_eq,
      h.reach_eq] at reach
    have low : -1 ≤ e.cells.along k := by nlinarith
    have high : e.cells.along k ≤ 1 := by nlinarith
    rw [(h.place_eq here k).2, (h.place_eq there k).2, BinGrid.isWord_iff, BinGrid.isWord_iff]
    omega

theorem total_eq :
    (grid cornerAtoms (.box lengths) 1).total = n .x * n .y * n .z := by
  rw [← h.shape_eq, ← h.shape_eq, ← h.shape_eq]
  rfl

theorem built : (UnitCell.box lengths).Built :=
  .orthorhombic (UnitCell.orthorhombic_eq_ok.2 ⟨h.lengths_pos, rfl⟩)

end Divided

/-- A cube of the size of the cutoff. -/
theorem divided_cube : Divided ⟨1, 1, 1⟩ fun _ => 1 := by
  have whole (k : Direction) : (⟨1, 1, 1⟩ : Vector3 ℝ).along k / 1 = ((1 : Nat) : ℝ) := by
    cases k <;> norm_num [Vector3.along]
  refine ⟨fun k => ?_, BinGrid.binCounts_of_few whole (fun _ => one_pos) (by decide),
    fun _ => by decide, fun _ => by decide, fun k => ?_⟩ <;>
  cases k <;> norm_num [Vector3.along]

/-- A box whose vectors are along the axes has no other entries. -/
theorem offDiagonal_box (lengths : Vector3 ℝ) :
    ∀ x ∈ (UnitCell.box lengths).matrix.offDiagonal, x = 0 := by
  simp [UnitCell.box, Matrix3.ofDiagonal, Matrix3.offDiagonal]

/-- In a cube all images of the two atoms are taken into account. -/
theorem agreesWithImages_cube : UnitCell.Built (.box (⟨1, 1, 1⟩ : Vector3 ℝ)) ∧
    WordsFit cornerAtoms (.box ⟨1, 1, 1⟩) 1 ∧ ∃ n trace,
      (new .checked cornerAtoms (.box ⟨1, 1, 1⟩) 1).outcome () = (.ok n, (), trace) ∧
      AgreesWithImages cornerAtoms (.box ⟨1, 1, 1⟩) 1 n trace.records := by
  have cube := divided_cube
  have agrees := agreesWithImages_of_periodic .checked cube.built nofun (fun _ => offDiagonal_box _)
    one_pos cube.wordsFit
  refine ⟨cube.built, cube.wordsFit, agrees.1 ?_⟩
  rw [cube.total_eq]
  decide

/-- The bins of a flat box before their number is reduced. -/
def flatCounts : Direction → Nat
  | .x => 10 ^ 22
  | .y => 10 ^ 22
  | .z => 1

/-- The bins of a flat box once their number is reduced. The third direction keeps its only bin, and
the product of the others stays large. -/
def flatBins : Direction → Nat
  | .x => 10 ^ 9
  | .y => 10 ^ 9
  | .z => 1

theorem divided_flat : Divided ⟨10 ^ 22, 10 ^ 22, 1⟩ flatBins := by
  have whole (k : Direction) :
      (⟨10 ^ 22, 10 ^ 22, 1⟩ : Vector3 ℝ).along k / 1 = flatCounts k := by
    cases k <;> norm_num [Vector3.along, flatCounts]
  have positive (k : Direction) : 0 < flatCounts k := by cases k <;> decide
  have reduced (k : Direction) : max (flatCounts k / 10 ^ 13) 1 = flatBins k := by
    cases k <;> decide
  refine ⟨fun k => ?_, fun k => ?_, fun k => ?_, fun k => ?_, fun k => ?_⟩
  · cases k <;> norm_num [Vector3.along]
  · rw [← reduced]
    exact BinGrid.binCounts_of_many whole positive (by decide)
      (cubeRoot_div (by decide) (by decide)) k
  · cases k <;> decide
  · cases k <;> decide
  · cases k <;> norm_num [Vector3.along, flatBins]

/-- In a flat box that is large enough there is no neighbor list, although every whole number is
small. -/
theorem not_forall_agreesWithImages : ¬ ∀ (positions : Array (Vector3 ℝ)) (cell : UnitCell ℝ)
    (cutoff : ℝ), cell.Built → cell.shape ≠ .infinite →
    (cell.shape = .orthorhombic → ∀ x ∈ cell.matrix.offDiagonal, x = 0) → 0 < cutoff →
    WordsFit positions cell cutoff → ∃ n trace,
      (new .checked positions cell cutoff).outcome () = (.ok n, (), trace) ∧
      AgreesWithImages positions cell cutoff n trace.records := by
  intro always
  have flat := divided_flat
  obtain ⟨n, trace, run, -⟩ := always cornerAtoms (.box ⟨10 ^ 22, 10 ^ 22, 1⟩) 1 flat.built nofun
    (fun _ => offDiagonal_box _) one_pos flat.wordsFit
  have many : maxStoredBins < (grid cornerAtoms (.box ⟨10 ^ 22, 10 ^ 22, 1⟩) 1).total := by
    rw [flat.total_eq]
    decide
  have failed := outcome_new_of_total .checked one_pos many
  rw [run] at failed
  cases failed

end Atomistic.NeighborsList
