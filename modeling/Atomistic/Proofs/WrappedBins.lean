import Atomistic.Proofs.NeighborSearch

/-!
# Builds that agree

A number that is a word wraps around to itself. So where a build that checks its sums gives a
neighbor list, a build that lets them wrap around meets the same candidates in the same order, and
gives the same list. They differ only where the first one is given up.
-/

namespace Atomistic

namespace BinGrid

theorem word_eq {n : Int} (h : isWord n = true) : word n = n := by
  rw [isWord_iff] at h
  exact Int.bmod_eq_of_le (by omega) (by omega)

section Candidates

variable {α : Type} {g : BinGrid α} (words : ∀ k, isWord (g.shape.along k) = true)
include words

theorem wrappedBin_eq (raw : Vector3 Int) : wrappedBin g.shape raw = binOf g.shape raw := by
  refine Vector3.ext_along fun k => ?_
  rw [wrappedBin, binOf, Vector3.along_zipWith, Vector3.along_zipWith, word_eq (words k)]

theorem wrappedCells_eq (raw : Vector3 Int) : wrappedCells g.shape raw = cellsOf g.shape raw := by
  refine Vector3.ext_along fun k => ?_
  rw [wrappedCells, cellsOf, Vector3.along_zipWith, Vector3.along_zipWith, word_eq (words k)]

theorem divides_of_words (positive : ∀ k, 0 < g.shape.along k) : g.divides = true := by
  rw [divides, Bool.or_eq_true]
  refine .inr (Vector3.all_eq_true.2 fun k => ?_)
  rw [Vector3.along_map, id, word_eq (words k), Bool.and_eq_true, bne_iff_ne, bne_iff_ne]
  have bins := positive k
  omega

variable [Scalar α]

/-- Atoms are placed without any sums. -/
theorem placeWrapped_eq : g.placeWrapped = g.place := by
  funext atom position
  simp only [placeWrapped, place, wrappedBin_eq words, wrappedCells_eq words]
  split <;> rfl

variable (looked : g.fitsWords = true)
include looked

/-- From a bin of the grid both builds get to the same bins. -/
theorem wrappedNeighbor?_eq {bin : Vector3 Nat} (inside : ∀ k, bin.along k < g.shape.along k)
    {offset : Vector3 Int}
    (near : ∀ k, -g.reach.along k ≤ offset.along k ∧ offset.along k ≤ g.reach.along k) :
    g.wrappedNeighbor? bin offset = g.neighbor? bin offset := by
  have sums : bin.zipWith (fun (b : Nat) d => word ((b : Int) + d)) offset
      = bin.zipWith (fun (b : Nat) d => (b : Int) + d) offset := by
    refine Vector3.ext_along fun k => ?_
    rw [Vector3.along_zipWith, Vector3.along_zipWith]
    refine word_eq (isWord_iff.2 ?_)
    have last := isWord_iff.1 (fitsWords_iff.1 looked k)
    have here := inside k
    have away := near k
    omega
  have bounds (raw : Vector3 Int) :
      raw.zipWith (fun b (n : Nat) => decide (0 ≤ b ∧ b < word n)) g.shape
        = raw.zipWith (fun b (n : Nat) => decide (0 ≤ b ∧ b < (n : Int))) g.shape := by
    refine Vector3.ext_along fun k => ?_
    rw [Vector3.along_zipWith, Vector3.along_zipWith, word_eq (words k)]
  simp only [wrappedNeighbor?, neighbor?, sums, bounds, wrappedBin_eq words, wrappedCells_eq words]

theorem wrappedEncounters_eq {atoms : List BinnedAtom} (holds : g.Holds atoms) :
    g.encountersBy g.wrappedNeighbor? atoms = g.encounters atoms := by
  rw [encounters, encountersBy_eq, encountersBy_eq]
  refine List.flatMap_congr fun bin hbin => List.flatMap_congr fun dx hx =>
    List.flatMap_congr fun dy hy => List.flatMap_congr fun dz hz => ?_
  obtain ⟨a, ha, rfl⟩ := mem_occupied.1 hbin
  have same : g.wrappedNeighbor? a.bin ⟨dx, dy, dz⟩ = g.neighbor? a.bin ⟨dx, dy, dz⟩ := by
    refine wrappedNeighbor?_eq words looked (holds.inside a ha) fun k => ?_
    cases k with
    | x => exact mem_offsets.1 hx
    | y => exact mem_offsets.1 hy
    | z => exact mem_offsets.1 hz
  rw [meetingsBy, meetingsBy, same]

omit words looked in
theorem wrappedCandidate_eq {e : Encounter} (fits : e.fitsWords = true) :
    e.wrappedCandidate = e.candidate := by
  have shift : e.candidate.shift.map word = e.candidate.shift := by
    refine Vector3.ext_along fun k => ?_
    rw [Vector3.along_map, Encounter.along_shift]
    exact word_eq (Encounter.fitsWords_iff.1 fits k).2
  rw [Encounter.wrappedCandidate, shift]

omit looked in
/-- Candidates that are met with checked sums are met with sums that wrap around. -/
theorem wrappedCandidates_of_checked (positive : ∀ k, 0 < g.shape.along k)
    {positions : Array (Vector3 α)} {candidates : List Candidate}
    (checked : g.checkedCandidates positions = .ok candidates) :
    g.wrappedCandidates positions = .ok candidates := by
  rw [checkedCandidates] at checked
  split at checked
  · next fits =>
    cases checked
    obtain ⟨looked, shifts⟩ := Bool.and_eq_true_iff.1 fits
    rw [wrappedCandidates, if_pos (divides_of_words words positive), placeWrapped_eq words]
    dsimp only
    rw [← placeAll, wrappedEncounters_eq words looked (holds_placeAll positive)]
    refine congrArg Except.ok (List.map_congr_left fun e he => ?_)
    exact wrappedCandidate_eq (List.all_eq_true.1 shifts e he)
  · cases checked

end Candidates

end BinGrid

namespace NeighborsList

open BinGrid

variable {α : Type} [ExactField α] {positions : Array (Vector3 α)} {cell : UnitCell α} {cutoff : α}

/-- If there is more than one bin in a row, one goes beyond the last one in looking around. So the
number of bins is a word if all numbers of bins that are looked at are words. -/
theorem words_of_fitsWords (looked : (grid positions cell cutoff).fitsWords = true)
    (k : Direction) : isWord ((grid positions cell cutoff).shape.along k) = true := by
  obtain ⟨n, one, hn⟩ := exists_count (ofPositions positions cell cutoff).lengths cutoff k
  have shape : (grid positions cell cutoff).shape.along k = min n 0xFFFFFFFFFFFFFFFF := by
    rw [grid, shape_ofPositions, Vector3.along_map, hn, toCount_natCast]
  have last := isWord_iff.1 (fitsWords_iff.1 looked k)
  have reach : (grid positions cell cutoff).reach.along k = 0 ∧ n = 1 ∨
      1 ≤ (grid positions cell cutoff).reach.along k := by
    rw [grid, reach_ofPositions, Vector3.along_zipWith, reachAlong]
    split
    · rw [hn, ExactField.one_eq]
      split
      · exact .inr le_rfl
      · next few =>
        rw [ExactField.lt_eq_true, Nat.one_lt_cast] at few
        exact .inl ⟨rfl, by omega⟩
    · exact .inr (le_max_right _ _)
  rw [isWord_iff]
  omega

/-- A search that ends with checked sums ends the same way in any build. -/
theorem imagesWithin_of_checked {met : List (Pair α)} (build : Build)
    (h : imagesWithin .checked positions cell cutoff = .ok met) :
    imagesWithin build positions cell cutoff = .ok met := by
  cases build with
  | checked => exact h
  | wrapping =>
    obtain ⟨stored, candidates, hcandidates, images⟩ := imagesWithin_eq_ok_iff.1 h
    have looked : (grid positions cell cutoff).fitsWords = true := by
      by_contra no
      rw [imagesWithin_of_not_fitsWords (Bool.eq_false_iff.2 no)] at h
      cases h
    exact imagesWithin_eq_ok_iff.2 ⟨stored, candidates,
      wrappedCandidates_of_checked (words_of_fitsWords looked) shape_pos hcandidates, images⟩

/-- Any build gives every neighbor list that a build with checked sums gives, and leaves the same
warnings. -/
theorem outcome_new_of_checked {n : NeighborsList α} {trace : Trace} (build : Build)
    (run : (new .checked positions cell cutoff).outcome () = (.ok n, (), trace)) :
    (new build positions cell cutoff).outcome () = (.ok n, (), trace) := by
  obtain ⟨accepted, met, hmet, -⟩ := images_of_outcome_new run
  rw [new_eq accepted, hmet] at run
  rw [new_eq accepted, imagesWithin_of_checked build hmet]
  exact run

/-- Where no numbers stop a search, any build gives the closest images of all that is found. -/
theorem outcome_new_of_fitsWords (build : Build) (positive : 0 < cutoff)
    (stored : (grid positions cell cutoff).total ≤ maxStoredBins)
    (looked : (grid positions cell cutoff).fitsWords = true)
    (shifts : ∀ e ∈ (grid positions cell cutoff).encounters
      ((grid positions cell cutoff).placeAll positions), e.fitsWords = true) :
    ∃ lists, ∃ texts : List (List String), ∃ trace, (new build positions cell cutoff).outcome ()
        = (.ok ⟨cutoff, (gather (found positions cell cutoff)).map (·.closest), lists⟩, (), trace) ∧
      Filled positions.size ((gather (found positions cell cutoff)).map (·.closest)) lists ∧
      texts.Perm ((gather (found positions cell cutoff)).map Images.warnings) ∧
      Trace.records trace = texts.flatten.map fun text => ⟨.warn, .neighbors, text⟩ :=
  outcome_new_of_ok (ExactField.isPositiveFinite_eq positive)
    (imagesWithin_of_checked build (imagesWithin_of_fitsWords stored looked shifts))

end NeighborsList

end Atomistic
