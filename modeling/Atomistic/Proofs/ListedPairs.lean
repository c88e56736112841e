import Atomistic.Neighbors.NeighborsList
import Atomistic.Proofs.GridShape
import Atomistic.Proofs.LabelTables

/-!
# Pairs listed by their atoms

Every image that is met joins two atoms of the system, the first one of them having the smaller
number, whether sums are checked or wrap around. So there is a list for each of the atoms of a pair,
and these lists can be filled pair by pair; after any number of pairs, each of them is what the pairs
so far have for its atom.
-/

namespace Atomistic

/-! ### Candidates of both builds -/

namespace BinGrid

variable {α : Type} [Scalar α] {g : BinGrid α} {positions : Array (Vector3 α)}

theorem placeWrapped_atom (i : Nat) (position : Vector3 α) :
    (g.placeWrapped i position).atom = i := by
  unfold placeWrapped
  split
  · exact place_atom i position
  · rfl

omit [Scalar α] in
/-- Atoms that meet are different atoms of the system. -/
theorem lt_of_mem_encountersBy {put : Nat → Vector3 α → BinnedAtom}
    (numbered : ∀ i position, (put i position).atom = i)
    {next : Vector3 Nat → Vector3 Int → Option (Vector3 Nat × Vector3 Int)} {e : Encounter}
    (h : e ∈ g.encountersBy next (placeAllBy put positions)) :
    e.here.atom < e.there.atom ∧ e.there.atom < positions.size := by
  obtain ⟨-, there, less, -⟩ := mem_encountersBy.1 h
  obtain ⟨j, hj, same⟩ := mem_placeAllBy.1 there
  rw [← same, numbered] at less ⊢
  exact ⟨less, hj⟩

/-- So candidates join different atoms of the system, in any build. -/
theorem lt_of_mem_candidatesIn {build : Build} {candidates : List Candidate}
    (h : g.candidatesIn positions build = .ok candidates) {c : Candidate} (hc : c ∈ candidates) :
    c.first < c.second ∧ c.second < positions.size := by
  cases build with
  | checked =>
    rw [candidatesIn, checkedCandidates] at h
    split at h
    · cases h
      obtain ⟨e, he, rfl⟩ := List.mem_map.1 hc
      exact lt_of_mem_encountersBy place_atom he
    · cases h
  | wrapping =>
    rw [candidatesIn, wrappedCandidates] at h
    split at h
    · cases h
      obtain ⟨e, he, rfl⟩ := List.mem_map.1 hc
      exact lt_of_mem_encountersBy placeWrapped_atom he
    · cases h

end BinGrid

namespace NeighborsList

variable {α : Type}

/-! ### Images within the cutoff -/

/-- Images are met where the grid can be stored and its numbers do not stop the build. -/
theorem imagesWithin_eq_ok_iff [Scalar α] {build : Build} {positions : Array (Vector3 α)}
    {cell : UnitCell α} {cutoff : α} {met : List (Pair α)} :
    imagesWithin build positions cell cutoff = .ok met ↔
      (BinGrid.ofPositions positions cell cutoff).total ≤ maxStoredBins ∧
      ∃ candidates, (BinGrid.ofPositions positions cell cutoff).candidatesIn positions build
          = .ok candidates ∧
        candidates.filterMap (pairWithin positions cell cutoff) = met := by
  dsimp only [imagesWithin]
  split
  · next many =>
    exact ⟨nofun, fun h => absurd h.1 (Nat.not_le.2 many)⟩
  · next few =>
    rw [except_bind_eq_ok]
    constructor
    · rintro ⟨candidates, found, h⟩
      exact ⟨Nat.le_of_not_lt few, candidates, found, Except.ok.inj h⟩
    · rintro ⟨-, candidates, found, rfl⟩
      exact ⟨candidates, found, rfl⟩

/-- A pair joins two different atoms, in order, among the first `size`. -/
def Joins (size : Nat) (p : Pair α) : Prop := p.first < p.second ∧ p.second < size

/-- An image that is met joins two atoms of the system, and its vector is not as long as the
cutoff. -/
theorem joins_of_mem_imagesWithin [Scalar α] {build : Build} {positions : Array (Vector3 α)}
    {cell : UnitCell α} {cutoff : α} {met : List (Pair α)}
    (h : imagesWithin build positions cell cutoff = .ok met) {p : Pair α} (hp : p ∈ met) :
    Joins positions.size p ∧ Scalar.le (cutoff * cutoff) p.vector.norm2 = false := by
  obtain ⟨-, candidates, hcandidates, rfl⟩ := imagesWithin_eq_ok_iff.1 h
  obtain ⟨c, hc, hp⟩ := List.mem_filterMap.1 hp
  unfold pairWithin at hp
  dsimp only at hp
  split at hp
  · cases hp
  · next within =>
    cases hp
    exact ⟨BinGrid.lt_of_mem_candidatesIn hcandidates hc, Bool.eq_false_iff.2 within⟩

/-! ### The lists of the atoms -/

/-- There is a list for each atom, with the pairs that contain it. -/
structure Filled (size : Nat) (pairs : List (Pair α)) (lists : Array (Array (Pair α))) : Prop where
  size_eq : lists.size = size
  each : ∀ a (h : a < lists.size), lists[a].toList = pairs.filter (·.contains a)

variable {size : Nat} {pairs : List (Pair α)} {lists : Array (Array (Pair α))} {p : Pair α}

theorem filled_replicate (size : Nat) :
    Filled size ([] : List (Pair α)) (Array.replicate size #[]) where
  size_eq := Array.size_replicate
  each a h := by rw [Array.getElem_replicate, List.filter_nil]

/-- One more pair goes to the lists of its two atoms, and to no other. -/
theorem Filled.enlist (h : Filled size pairs lists) (joins : Joins size p) :
    ∃ more, enlist lists p = .ok more ∧ Filled size (pairs ++ [p]) more := by
  obtain ⟨less, inside⟩ := joins
  rw [← h.size_eq] at inside
  have accepted : (decide (p.first < lists.size) && decide (p.second < lists.size)) = true := by
    rw [Bool.and_eq_true, decide_eq_true_eq, decide_eq_true_eq]
    exact ⟨less.trans inside, inside⟩
  refine ⟨_, if_pos accepted, ?_, fun a ha => ?_⟩
  · rw [Array.size_modify, Array.size_modify, h.size_eq]
  · rw [Array.size_modify, Array.size_modify] at ha
    rw [List.filter_append, ← h.each a ha, Array.getElem_modify, Array.getElem_modify]
    -- no list gets the pair twice, since its atoms are different
    by_cases first : p.first = a
    · have second : p.second ≠ a := by omega
      simp [first, second, Pair.contains]
    · by_cases second : p.second = a <;> simp [first, second, Pair.contains]

/-- All pairs are put into the lists, one after the other. -/
theorem exists_filled (joins : ∀ p ∈ pairs, Joins size p) :
    ∃ lists, pairs.foldlM enlist (Array.replicate size #[]) = .ok lists ∧
      Filled size pairs lists := by
  suffices run : ∀ (rest done : List (Pair α)) (lists : Array (Array (Pair α))),
      (∀ p ∈ rest, Joins size p) → Filled size done lists →
      ∃ filled, rest.foldlM enlist lists = .ok filled ∧ Filled size (done ++ rest) filled from
    run pairs [] _ joins (filled_replicate size)
  intro rest
  induction rest with
  | nil =>
    intro done lists _ h
    exact ⟨lists, rfl, by rwa [List.append_nil]⟩
  | cons p rest ih =>
    intro done lists joins h
    rw [List.forall_mem_cons] at joins
    obtain ⟨more, added, hmore⟩ := h.enlist joins.1
    obtain ⟨filled, run, hfilled⟩ := ih (done ++ [p]) more joins.2 hmore
    refine ⟨filled, ?_, ?_⟩
    · rw [List.foldlM_cons, added]
      exact run
    · rwa [List.append_assoc, List.singleton_append] at hfilled

/-- A pair is in the lists of its two atoms, and in no other. -/
theorem Filled.mem_iff (h : Filled size pairs lists) (joins : ∀ p ∈ pairs, Joins size p)
    (hp : p ∈ pairs) (a : Nat) :
    (∃ h : a < lists.size, p ∈ lists[a]) ↔ a = p.first ∨ a = p.second := by
  have own : p.contains a = true ↔ a = p.first ∨ a = p.second := by
    rw [Pair.contains, Bool.or_eq_true, beq_iff_eq, beq_iff_eq, eq_comm, eq_comm (b := a)]
  constructor
  · rintro ⟨ha, hmem⟩
    rw [← Array.mem_toList_iff, h.each a ha, List.mem_filter] at hmem
    exact own.1 hmem.2
  · intro hown
    obtain ⟨less, inside⟩ := joins p hp
    rw [← h.size_eq] at inside
    have ha : a < lists.size := by
      rcases hown with rfl | rfl
      · exact less.trans inside
      · exact inside
    refine ⟨ha, ?_⟩
    rw [← Array.mem_toList_iff, h.each a ha, List.mem_filter]
    exact ⟨hp, own.2 hown⟩

end NeighborsList

end Atomistic
