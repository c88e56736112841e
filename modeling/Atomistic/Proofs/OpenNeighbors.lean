import Atomistic.Proofs.RealScalar
import Atomistic.Proofs.WrappedBins
import Mathlib.Tactic.NormNum

/-!
# Neighbors in open systems

The neighbor list of an open system holds the pairs of atoms that are closer than the cutoff, each
pair once and with the vector between its atoms. A pair is a candidate once at most, so that users
are never told of several images. The list is given up when the bins of the box around the atoms can
not be stored or counted, which an atom that is far away from the others is enough for.
-/

namespace Atomistic.NeighborsList

variable {α : Type} [ExactField α] {positions : Array (Vector3 α)} {cutoff : α}

/-! ### What is found -/

theorem candidateVector_of_open (c : Candidate) :
    candidateVector positions .infinite c = separation positions c.first c.second := rfl

/-- In an open system there is one cell. -/
theorem shift_of_mem_candidates {c : Candidate}
    (h : c ∈ candidates positions .infinite cutoff) : c.shift = Vector3.replicate 0 := by
  obtain ⟨-, -, -, -, -, -, -, -, home⟩ := (BinGrid.mem_candidates holds_atoms shape_pos).1 h
  exact Vector3.ext_along fun k => (home rfl k).trans (Vector3.along_replicate 0 k).symm

/-- The sums of numbers of cells are zero. -/
theorem shifts_of_open : ∀ e ∈ (grid positions .infinite cutoff).encounters
    ((grid positions .infinite cutoff).placeAll positions), e.fitsWords = true := by
  intro e he
  have hopen : (grid positions .infinite cutoff).cell.shape = .infinite := rfl
  obtain ⟨here, there, -, -, cells⟩ := (holds_atoms.mem_encounters shape_pos).1 he
  refine BinGrid.Encounter.fitsWords_iff.2 fun k => ?_
  rw [cells hopen, holds_atoms.home hopen _ here, holds_atoms.home hopen _ there]
  exact ⟨rfl, rfl⟩

/-- Every pair is a candidate once at most. -/
theorem length_candidates_le_one (i j : Nat) :
    ((candidates positions .infinite cutoff).filter fun c => c.first = i ∧ c.second = j).length
      ≤ 1 := by
  have only : ∀ c ∈ (candidates positions .infinite cutoff).filter
      (fun c => c.first = i ∧ c.second = j), c = ⟨i, j, Vector3.replicate 0⟩ := by
    intro c hc
    rw [List.mem_filter, decide_eq_true_eq] at hc
    obtain ⟨hc, rfl, rfl⟩ := hc
    rw [← shift_of_mem_candidates hc]
  have subset : (candidates positions .infinite cutoff).filter
      (fun c => c.first = i ∧ c.second = j) ⊆ [⟨i, j, Vector3.replicate 0⟩] :=
    fun c hc => List.mem_singleton.2 (only c hc)
  exact (nodup_candidates.filter _).length_le_of_subset subset

theorem mem_candidates_of_lt (positive : 0 < cutoff)
    (stored : (grid positions .infinite cutoff).total ≤ maxStoredBins) {i j : Nat} (less : i < j)
    (hj : j < positions.size) (close : (separation positions i j).norm < cutoff) :
    ⟨i, j, Vector3.replicate 0⟩ ∈ candidates positions .infinite cutoff := by
  have hi : i < positions.size := less.trans hj
  rw [separation_eq hi hj] at close
  refine mem_candidates_of_near less hj (fun k => ?_) fun _ k => Vector3.along_replicate 0 k
  have near := BinGrid.near_of_open rfl positive rfl stored hi hj close k
  dsimp only
  rw [Vector3.along_replicate, Int.zero_mul, Int.add_zero]
  exact near

theorem mem_found_of_open (positive : 0 < cutoff)
    (stored : (grid positions .infinite cutoff).total ≤ maxStoredBins) {p : Pair α} :
    p ∈ found positions .infinite cutoff ↔ p.first < p.second ∧ p.second < positions.size ∧
      p.vector = separation positions p.first p.second ∧ p.vector.norm < cutoff := by
  rw [mem_found positive]
  constructor
  · rintro ⟨c, hc, close, rfl⟩
    obtain ⟨less, hj⟩ := lt_of_mem_candidates hc
    exact ⟨less, hj, rfl, close⟩
  · rintro ⟨less, hj, vector, close⟩
    rw [vector] at close
    refine ⟨⟨p.first, p.second, Vector3.replicate 0⟩,
      mem_candidates_of_lt positive stored less hj close, close, ?_⟩
    rw [candidateVector_of_open, ← vector]

section Found

variable (positive : 0 < cutoff) (stored : (grid positions .infinite cutoff).total ≤ maxStoredBins)
include positive stored

/-- What is found for a pair of atoms can not be told apart. -/
theorem eq_of_mem_found {p q : Pair α} (hp : p ∈ found positions .infinite cutoff)
    (hq : q ∈ found positions .infinite cutoff) (same : q.key = p.key) : q = p := by
  obtain ⟨-, -, vector, -⟩ := (mem_found_of_open positive stored).1 hp
  obtain ⟨-, -, vector', -⟩ := (mem_found_of_open positive stored).1 hq
  rw [Pair.key, Pair.key, toLex_inj, Pair.atoms, Pair.atoms, Prod.mk.injEq] at same
  rw [same.1, same.2, ← vector] at vector'
  cases p
  cases q
  exact congr (congr (congrArg Pair.mk same.1) same.2) vector'

theorem length_candidates_of_mem_found {p : Pair α} (hp : p ∈ found positions .infinite cutoff) :
    ((candidates positions .infinite cutoff).filter fun c =>
      c.first = p.first ∧ c.second = p.second).length = 1 := by
  obtain ⟨less, hj, vector, close⟩ := (mem_found_of_open positive stored).1 hp
  have candidate := mem_candidates_of_lt positive stored less hj (vector ▸ close)
  have met : ⟨p.first, p.second, Vector3.replicate 0⟩ ∈
      (candidates positions .infinite cutoff).filter
        fun c => c.first = p.first ∧ c.second = p.second := by
    rw [List.mem_filter, decide_eq_true_eq]
    exact ⟨candidate, rfl, rfl⟩
  exact le_antisymm (length_candidates_le_one _ _) (List.length_pos_of_mem met)

end Found

theorem length_closeCandidates_le_one (i j : Nat) :
    (closeCandidates positions .infinite cutoff i j).length ≤ 1 := by
  have fewer : (closeCandidates positions .infinite cutoff i j).length
      ≤ ((candidates positions .infinite cutoff).filter fun c =>
        c.first = i ∧ c.second = j).length := by
    refine List.Sublist.length_le (List.monotone_filter_right _ fun c hc => ?_)
    rw [decide_eq_true_eq] at hc ⊢
    exact ⟨hc.1, hc.2.1⟩
  exact fewer.trans (length_candidates_le_one i j)

/-! ### Agreement with all pairs -/

/-- A neighbor list and the records left with it are those that trying all pairs of atoms gives. -/
structure AgreesWithPairs (positions : Array (Vector3 α)) (cutoff : α) (n : NeighborsList α)
    (records : List Record) : Prop where
  cutoff_eq : n.cutoff = cutoff
  lists : Filled positions.size n.pairs n.byAtom
  ordered : n.pairs.Pairwise fun p q => p.key < q.key
  listed : ∀ p, p ∈ n.pairs ↔ p.first < p.second ∧ p.second < positions.size ∧
    p.vector = separation positions p.first p.second ∧ p.vector.norm < cutoff
  once : ∀ p ∈ n.pairs, ((candidates positions .infinite cutoff).filter fun c =>
    c.first = p.first ∧ c.second = p.second).length = 1
  silent : ∀ count i j, ⟨.warn, .neighbors, severalImages count i j⟩ ∉ records

theorem agreesWithPairs_of_gather (positive : 0 < cutoff)
    (stored : (grid positions .infinite cutoff).total ≤ maxStoredBins)
    {lists : Array (Array (Pair α))} {texts : List (List String)}
    (filled :
      Filled positions.size ((gather (found positions .infinite cutoff)).map (·.closest)) lists)
    (all : texts.Perm ((gather (found positions .infinite cutoff)).map Images.warnings)) :
    AgreesWithPairs positions cutoff
      ⟨cutoff, (gather (found positions .infinite cutoff)).map (·.closest), lists⟩
      (texts.flatten.map fun text => ⟨.warn, .neighbors, text⟩) where
  cutoff_eq := rfl
  lists := filled
  ordered := List.pairwise_map.2 (pairwise_gather _)
  listed := by
    intro p
    rw [← mem_found_of_open positive stored]
    constructor
    · exact fun hp => (found_of_mem hp).1
    · intro hp
      obtain ⟨q, hq, same⟩ := exists_of_found hp
      rw [← eq_of_mem_found positive stored hp (found_of_mem hq).1 same]
      exact hq
  once p hp := length_candidates_of_mem_found positive stored (found_of_mem hp).1
  silent := by
    intro count i j h
    obtain ⟨one, rfl⟩ := (severalImages_mem_records positive all).1 h
    exact absurd one (not_lt_of_ge (length_closeCandidates_le_one i j))

/-- In any build, the neighbor list of an open system agrees with trying all pairs of atoms as long
as the bins of its grid can be stored and counted. When they can not be stored no build gives a
list, and when they can not be counted a build that checks its sums gives none. -/
theorem agreesWithPairs_of_open (build : Build) (positive : 0 < cutoff) :
    ((grid positions .infinite cutoff).total ≤ maxStoredBins ∧
        (grid positions .infinite cutoff).fitsWords = true → ∃ n trace,
      (new build positions .infinite cutoff).outcome () = (.ok n, (), trace) ∧
      AgreesWithPairs positions cutoff n trace.records) ∧
    (maxStoredBins < (grid positions .infinite cutoff).total →
      ((new build positions .infinite cutoff).outcome ()).1 = .error (.panic .unspecified)) ∧
    (¬ ((grid positions .infinite cutoff).total ≤ maxStoredBins ∧
        (grid positions .infinite cutoff).fitsWords = true) →
      ((new .checked positions .infinite cutoff).outcome ()).1 = .error (.panic .unspecified)) := by
  refine ⟨?_, outcome_new_of_total build positive, ?_⟩
  · rintro ⟨stored, looked⟩
    obtain ⟨lists, texts, trace, run, filled, all, records⟩ :=
      outcome_new_of_fitsWords build positive stored looked shifts_of_open
    refine ⟨_, trace, run, ?_⟩
    rw [records]
    exact agreesWithPairs_of_gather positive stored filled all
  · intro fails
    rcases Nat.lt_or_ge maxStoredBins (grid positions .infinite cutoff).total with many | stored
    · exact outcome_new_of_total .checked positive many
    · refine outcome_new_of_error (ExactField.isPositiveFinite_eq positive)
        (imagesWithin_of_not_fitsWords ?_)
      exact Bool.eq_false_iff.2 fun looked => fails ⟨stored, looked⟩

/-! ### Three atoms on a line -/

/-- Two atoms close to each other, and a third one at some distance. -/
noncomputable def lineAtoms (distance : ℝ) : Array (Vector3 ℝ) :=
  #[⟨0, 0, 0⟩, ⟨(2 : Nat)⁻¹, 0, 0⟩, ⟨distance, 0, 0⟩]

section Line

variable {distance : ℝ} (h : 1 ≤ distance)
include h

theorem boundingBox_lineAtoms :
    BinGrid.boundingBox (lineAtoms distance) 1 = (Vector3.zero, ⟨distance, 1, 1⟩) := by
  have number (x : ℝ) : Scalar.isNumber x = true := decide_eq_true rfl
  have low : min (0 : ℝ) distance = 0 := min_eq_left (zero_le_one.trans h)
  have high : max (2⁻¹ : ℝ) distance = distance := max_eq_right (le_trans (by norm_num) h)
  have extent : (⟨distance, 0, 0⟩ : Vector3 ℝ) - ⟨0, 0, 0⟩ = ⟨distance, 0, 0⟩ :=
    Vector3.ext_along fun k => by
      rw [Vector3.along_sub]
      cases k <;> exact sub_zero _
  simp [BinGrid.boundingBox, lineAtoms, Scalar.lowest, Scalar.highest, number,
    ExactField.least_eq, ExactField.greatest_eq, low, high, extent, Vector3.map, h, Vector3.zero,
    Vector3.replicate]

variable {n : Direction → Nat}
  (count : ∀ k, (BinGrid.binCounts (⟨distance, 1, 1⟩ : Vector3 ℝ) 1).along k = n k)
include count

theorem shape_lineAtoms (k : Direction) :
    (grid (lineAtoms distance) .infinite 1).shape.along k = min (n k) 0xFFFFFFFFFFFFFFFF := by
  rw [grid, BinGrid.shape_ofPositions, BinGrid.lengths_of_open _ _ rfl, boundingBox_lineAtoms h,
    Vector3.along_map, count, BinGrid.toCount_natCast]

theorem total_lineAtoms (small : ∀ k, n k ≤ 0xFFFFFFFFFFFFFFFF) :
    (grid (lineAtoms distance) .infinite 1).total = n .x * n .y * n .z := by
  have shape (k : Direction) : (grid (lineAtoms distance) .infinite 1).shape.along k = n k :=
    (shape_lineAtoms h count k).trans (Nat.min_eq_left (small k))
  rw [← shape, ← shape, ← shape]
  rfl

end Line

/-- The pairs of three atoms in one bin are all taken into account. -/
theorem agreesWithPairs_lineAtoms : (0 : ℝ) < 1 ∧ ∃ n trace,
    (new .checked (lineAtoms 1) .infinite 1).outcome () = (.ok n, (), trace) ∧
    AgreesWithPairs (lineAtoms 1) 1 n trace.records := by
  have whole (k : Direction) : (⟨1, 1, 1⟩ : Vector3 ℝ).along k / 1 = ((1 : Nat) : ℝ) := by
    cases k <;> norm_num [Vector3.along]
  have count := BinGrid.binCounts_of_few whole (fun _ => one_pos) (by decide)
  have single (k : Direction) : (grid (lineAtoms 1) .infinite 1).shape.along k = 1 :=
    shape_lineAtoms le_rfl count k
  have stored : (grid (lineAtoms 1) .infinite 1).total ≤ maxStoredBins := by
    rw [total_lineAtoms le_rfl count fun _ => by decide]
    decide
  have looked : (grid (lineAtoms 1) .infinite 1).fitsWords = true := by
    refine BinGrid.fitsWords_iff.2 fun k => ?_
    have reach := BinGrid.reach_of_open (g := grid (lineAtoms 1) .infinite 1) rfl rfl stored k
    rw [reach, single]
    rfl
  exact ⟨one_pos, (agreesWithPairs_of_open .checked one_pos).1 ⟨stored, looked⟩⟩

/-- The bins between atoms that are far from each other, before their number is reduced. -/
def distantCounts : Direction → Nat
  | .x => 10 ^ 26
  | .y => 1
  | .z => 1

/-- The bins between atoms that are far from each other, once their number is reduced. Two
directions keep their only bin, and the other one has the bins of a cube. -/
def distantBins : Direction → Nat
  | .x => 10 ^ 19
  | .y => 1
  | .z => 1

theorem binCounts_distant (k : Direction) :
    (BinGrid.binCounts (⟨10 ^ 26, 1, 1⟩ : Vector3 ℝ) 1).along k = distantBins k := by
  have whole (k : Direction) :
      (⟨10 ^ 26, 1, 1⟩ : Vector3 ℝ).along k / 1 = distantCounts k := by
    cases k <;> norm_num [Vector3.along, distantCounts]
  have positive (k : Direction) : 0 < distantCounts k := by cases k <;> decide
  have reduced : max (distantCounts k / 10 ^ 7) 1 = distantBins k := by cases k <;> decide
  rw [← reduced]
  exact BinGrid.binCounts_of_many whole positive (by decide)
    (cubeRoot_div (by decide) (by decide)) k

/-- An atom that is far enough away leaves the others without a neighbor list. -/
theorem not_forall_agreesWithPairs : ¬ ∀ (positions : Array (Vector3 ℝ)) (cutoff : ℝ), 0 < cutoff →
    ∃ n trace, (new .checked positions .infinite cutoff).outcome () = (.ok n, (), trace) ∧
      AgreesWithPairs positions cutoff n trace.records := by
  intro always
  obtain ⟨n, trace, run, -⟩ := always (lineAtoms (10 ^ 26)) 1 one_pos
  have many : maxStoredBins < (grid (lineAtoms (10 ^ 26)) .infinite 1).total := by
    rw [total_lineAtoms (by norm_num) binCounts_distant fun k => by cases k <;> decide]
    decide
  have failed := outcome_new_of_total .checked one_pos many
  rw [run] at failed
  cases failed

end Atomistic.NeighborsList
