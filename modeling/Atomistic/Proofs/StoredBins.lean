import Atomistic.AtomicSystem.Systems
import Atomistic.Proofs.CachedNeighbors
import Atomistic.Proofs.GridShape
import Atomistic.Proofs.LabelTables
import Atomistic.Scalar.Binary64
import Mathlib.Data.List.Sort

/-!
# Bins in an array

The bins of a grid may as well be kept in an array, one after the other by their numbers. Atoms are
then put where the numbers of their bins say, and all bins of the array are searched in turn,
together with the bins around each of them. Asking for a bin that is not in the array is an error,
and it never occurs: bins that are counted on over all images of the cell come back into the grid by
division, however far out they are. So the search comes to an end, and gives the candidates of the
grid in their order. Which ones these are is told by the raw bins of the atoms alone.
-/

namespace Atomistic.BinGrid

/-! ### Searching an array -/

/-- Is this one of the bins of a grid? -/
def isInside (shape bin : Vector3 Nat) : Bool :=
  (bin.zipWith (fun b n => decide (b < n)) shape).all id

/-- The bin with some number. -/
def binAt (shape : Vector3 Nat) (n : Nat) : Vector3 Nat :=
  ⟨n / shape.z / shape.y, n / shape.z % shape.y, n % shape.z⟩

/-- The atoms in a bin of an array. -/
def look (shape : Vector3 Nat) (bins : Array (List BinnedAtom)) (bin : Vector3 Nat) :
    Except Error (List BinnedAtom) :=
  if isInside shape bin then elementAt bins (binNumber shape bin)
  else .error (.panic .unspecified)

/-- Put an atom into its bin, behind those that are there. -/
def store (shape : Vector3 Nat) (bins : Array (List BinnedAtom)) (a : BinnedAtom) :
    Except Error (Array (List BinnedAtom)) := do
  let there ← look shape bins a.bin
  return bins.setIfInBounds (binNumber shape a.bin) (there ++ [a])

/-- The array with all bins of a grid, after some atoms were put into them. -/
def storeAll (shape : Vector3 Nat) (atoms : List BinnedAtom) :
    Except Error (Array (List BinnedAtom)) :=
  atoms.foldlM (store shape) (Array.replicate (shape.x * shape.y * shape.z) [])

/-- The offsets of all bins within reach. -/
def steps (reach : Vector3 Int) : List (Vector3 Int) :=
  (offsets reach.x).flatMap fun dx =>
    (offsets reach.y).flatMap fun dy => (offsets reach.z).map fun dz => ⟨dx, dy, dz⟩

variable {α : Type}

/-- The encounters of the atoms of a bin with those of the bin at some offset. -/
def meet (g : BinGrid α) (bins : Array (List BinnedAtom)) (bin : Vector3 Nat)
    (offset : Vector3 Int) : Except Error (List Encounter) :=
  match g.neighbor? bin offset with
  | none => .ok []
  | some (next, cells) => do
    let here ← look g.shape bins bin
    let there ← look g.shape bins next
    return here.flatMap fun a =>
      there.filterMap fun b => if a.atom < b.atom then some ⟨cells, a, b⟩ else none

/-- The candidates that searching all bins of an array gives. -/
def search (g : BinGrid α) (bins : Array (List BinnedAtom)) : Except Error (List Candidate) := do
  let found ← (List.range g.total).mapM fun n =>
    return (← (steps g.reach).mapM (g.meet bins (binAt g.shape n))).flatten
  return found.flatten.map Encounter.candidate

/-! ### Numbers of bins -/

section Numbers

variable {shape bin : Vector3 Nat}

theorem isInside_iff : isInside shape bin = true ↔ ∀ k, bin.along k < shape.along k := by
  simp [isInside, Vector3.all_eq_true]

/-- Inside of the grid, bins are told by their numbers. -/
theorem binAt_binNumber (inside : ∀ k, bin.along k < shape.along k) :
    binAt shape (binNumber shape bin) = bin := by
  have hy : bin.y < shape.y := inside .y
  have hz : bin.z < shape.z := inside .z
  have row : binNumber shape bin / shape.z = bin.x * shape.y + bin.y := by
    rw [binNumber, Nat.mul_comm, Nat.mul_add_div (by omega), Nat.div_eq_of_lt hz, Nat.add_zero]
  have place : binNumber shape bin % shape.z = bin.z := by
    rw [binNumber, Nat.mul_comm, Nat.mul_add_mod, Nat.mod_eq_of_lt hz]
  rw [binAt, row, place, Nat.mul_comm, Nat.mul_add_div (by omega), Nat.mul_add_mod,
    Nat.div_eq_of_lt hy, Nat.mod_eq_of_lt hy, Nat.add_zero]

theorem binNumber_binAt (n : Nat) : binNumber shape (binAt shape n) = n := by
  rw [binNumber, binAt, Nat.div_add_mod', Nat.div_add_mod']

theorem binNumber_lt (inside : ∀ k, bin.along k < shape.along k) :
    binNumber shape bin < shape.x * shape.y * shape.z := by
  have hx : bin.x + 1 ≤ shape.x := inside .x
  have hy : bin.y < shape.y := inside .y
  have hz : bin.z < shape.z := inside .z
  have row : bin.x * shape.y + bin.y < shape.x * shape.y := by
    have := Nat.mul_le_mul_right shape.y hx
    rw [Nat.add_mul, Nat.one_mul] at this
    omega
  have all := Nat.mul_le_mul_right shape.z row
  rw [Nat.succ_mul] at all
  rw [binNumber]
  omega

theorem binAt_inside {n : Nat} (h : n < shape.x * shape.y * shape.z) (k : Direction) :
    (binAt shape n).along k < shape.along k := by
  have hz : 0 < shape.z := Nat.pos_of_ne_zero fun none => by simp [none] at h
  have hy : 0 < shape.y := Nat.pos_of_ne_zero fun none => by simp [none] at h
  cases k with
  | x =>
    refine Nat.div_lt_of_lt_mul (Nat.div_lt_of_lt_mul ?_)
    rwa [Nat.mul_comm shape.y, Nat.mul_comm shape.z]
  | y => exact Nat.mod_lt _ hy
  | z => exact Nat.mod_lt _ hz

end Numbers

/-! ### Storing -/

/-- An array has the atoms of every bin of the grid at its number. -/
structure Stores (shape : Vector3 Nat) (bins : Array (List BinnedAtom))
    (atoms : List BinnedAtom) : Prop where
  size : bins.size = shape.x * shape.y * shape.z
  kept : ∀ bin, (∀ k, bin.along k < shape.along k) →
    bins[binNumber shape bin]? = some (atoms.filter (·.bin == bin))

section Storing

variable {shape bin : Vector3 Nat} {bins : Array (List BinnedAtom)} {atoms : List BinnedAtom}

theorem stores_nil (shape : Vector3 Nat) :
    Stores shape (Array.replicate (shape.x * shape.y * shape.z) []) [] where
  size := Array.size_replicate
  kept bin inside := by simp [binNumber_lt inside]

/-- Looking into a bin of the grid is no error. -/
theorem Stores.look (h : Stores shape bins atoms) (inside : ∀ k, bin.along k < shape.along k) :
    look shape bins bin = .ok (atoms.filter (·.bin == bin)) := by
  rw [BinGrid.look, if_pos (isInside_iff.2 inside), Systems.elementAt_of_some (h.kept bin inside)]

/-- One more atom can be put into its bin. -/
theorem Stores.store (h : Stores shape bins atoms) {a : BinnedAtom}
    (inside : ∀ k, a.bin.along k < shape.along k) :
    ∃ bins', store shape bins a = .ok bins' ∧ Stores shape bins' (atoms ++ [a]) := by
  refine ⟨_, by rw [BinGrid.store, h.look inside]; rfl, ?_, fun bin hbin => ?_⟩
  · rw [Array.size_setIfInBounds, h.size]
  · rw [Array.getElem?_setIfInBounds, h.size, List.filter_append]
    by_cases same : a.bin = bin
    · subst same
      simp [binNumber_lt inside]
    · have apart : binNumber shape a.bin ≠ binNumber shape bin := fun number =>
        same ((binAt_binNumber inside).symm.trans
          ((congrArg (binAt shape) number).trans (binAt_binNumber hbin)))
      rw [if_neg apart, h.kept bin hbin]
      simp [same]

/-- Any number of atoms can be put into their bins. -/
theorem Stores.foldlM_store (h : Stores shape bins atoms) {more : List BinnedAtom}
    (inside : ∀ a ∈ more, ∀ k, a.bin.along k < shape.along k) :
    ∃ bins', more.foldlM (BinGrid.store shape) bins = .ok bins' ∧
      Stores shape bins' (atoms ++ more) := by
  induction more generalizing bins atoms with
  | nil => exact ⟨bins, rfl, by rwa [List.append_nil]⟩
  | cons a more ih =>
    rw [List.forall_mem_cons] at inside
    obtain ⟨bins', stored, h'⟩ := h.store inside.1
    obtain ⟨bins'', rest, h''⟩ := ih h' inside.2
    refine ⟨bins'', ?_, by rwa [List.append_assoc] at h''⟩
    rw [List.foldlM_cons]
    exact except_bind_eq_ok.2 ⟨bins', stored, rest⟩

theorem exists_storeAll (inside : ∀ a ∈ atoms, ∀ k, a.bin.along k < shape.along k) :
    ∃ bins, storeAll shape atoms = .ok bins ∧ Stores shape bins atoms := by
  have h := (stores_nil shape).foldlM_store inside
  rwa [List.nil_append] at h

end Storing

/-! ### The search -/

section Search

variable {g : BinGrid α} {bins : Array (List BinnedAtom)} {atoms : List BinnedAtom}

/-- The bins around a bin of the grid are bins of the grid. -/
theorem Stores.meet (h : Stores g.shape bins atoms) (positive : ∀ k, 0 < g.shape.along k)
    {bin : Vector3 Nat} (inside : ∀ k, bin.along k < g.shape.along k) (offset : Vector3 Int) :
    g.meet bins bin offset = .ok (g.meetings atoms bin offset) := by
  rw [BinGrid.meet, meetings, meetingsBy]
  cases found : g.neighbor? bin offset with
  | none => rfl
  | some there =>
    obtain ⟨next, cells⟩ := there
    have next_inside := fun k => (((neighbor?_eq_some positive).1 found).1 k).1
    dsimp only
    rw [h.look inside, h.look next_inside]
    rfl

theorem encounters_eq_steps : g.encounters atoms =
    (occupied g.shape atoms).flatMap fun bin => (steps g.reach).flatMap (g.meetings atoms bin) := by
  simp only [encounters_eq, steps, List.flatMap_assoc, List.flatMap_map]

theorem meetings_of_not_occupied {bin : Vector3 Nat} (empty : bin ∉ occupied g.shape atoms)
    (offset : Vector3 Int) : g.meetings atoms bin offset = [] := by
  rw [List.eq_nil_iff_forall_not_mem]
  intro e he
  obtain ⟨here, -, hbin, -⟩ := mem_meetings.1 he
  exact empty (mem_occupied.2 ⟨e.here, here, hbin⟩)

/-- What is nothing outside of a part may be taken for the part alone. -/
theorem flatMap_of_sublist {β γ : Type} {f : β → List γ} {part whole : List β}
    (sublist : part.Sublist whole) (nodup : whole.Nodup)
    (nothing : ∀ b ∈ whole, b ∉ part → f b = []) : whole.flatMap f = part.flatMap f := by
  induction sublist with
  | slnil => rfl
  | @cons part whole b rest ih =>
    obtain ⟨fresh, nodup⟩ := List.nodup_cons.1 nodup
    rw [List.forall_mem_cons] at nothing
    have alone : f b = [] := nothing.1 fun member => fresh (rest.subset member)
    rw [List.flatMap_cons, alone, List.nil_append, ih nodup nothing.2]
  | @cons_cons part whole b rest ih =>
    obtain ⟨fresh, nodup⟩ := List.nodup_cons.1 nodup
    rw [List.flatMap_cons, List.flatMap_cons, ih nodup fun c hc outside => ?_]
    refine nothing c (List.mem_cons_of_mem b hc) fun member => ?_
    rcases List.mem_cons.1 member with rfl | member
    · exact fresh hc
    · exact outside member

/-- The order of the numbers of bins. -/
def Before (shape b c : Vector3 Nat) : Prop := binNumber shape b < binNumber shape c

theorem pairwise_bins (shape : Vector3 Nat) (n : Nat) :
    ((List.range n).map (binAt shape)).Pairwise (Before shape) := by
  refine List.pairwise_map.2 (List.pairwise_lt_range.imp fun less => ?_)
  simpa only [Before, binNumber_binAt] using less

theorem nodup_bins (shape : Vector3 Nat) (n : Nat) : ((List.range n).map (binAt shape)).Nodup :=
  (pairwise_bins shape n).imp fun less same => Nat.ne_of_lt less (congrArg (binNumber shape) same)

theorem Holds.inside_of_occupied (h : g.Holds atoms) {bin : Vector3 Nat}
    (held : bin ∈ occupied g.shape atoms) (k : Direction) : bin.along k < g.shape.along k := by
  obtain ⟨a, ha, rfl⟩ := mem_occupied.1 held
  exact h.inside a ha k

/-- The bins that hold atoms are in the order of their numbers. -/
theorem Holds.pairwise_occupied (h : g.Holds atoms) :
    (occupied g.shape atoms).Pairwise (Before g.shape) := by
  have ordered : (occupied g.shape atoms).Pairwise
      fun b c => binNumber g.shape b ≤ binNumber g.shape c := by
    refine (List.pairwise_mergeSort ?_ ?_ _).imp of_decide_eq_true
    · intro b c d hbc hcd
      simp only [decide_eq_true_eq] at *
      omega
    · intro b c
      simp only [Bool.or_eq_true, decide_eq_true_eq]
      omega
  refine (ordered.and (nodup_occupied g.shape)).imp_of_mem ?_
  rintro b c hb hc ⟨le, ne⟩
  refine Nat.lt_of_le_of_ne le fun same => ne ?_
  rw [← binAt_binNumber (h.inside_of_occupied hb), same, binAt_binNumber (h.inside_of_occupied hc)]

/-- They are among all bins of the grid, with others that hold no atoms between them. -/
theorem Holds.occupied_sublist (h : g.Holds atoms) :
    (occupied g.shape atoms).Sublist ((List.range g.total).map (binAt g.shape)) := by
  have antisymm : Std.Antisymm (Before g.shape) := ⟨fun b c h h' => absurd h' (Nat.lt_asymm h)⟩
  have subset : occupied g.shape atoms ⊆ (List.range g.total).map (binAt g.shape) := by
    intro bin held
    have inside := h.inside_of_occupied held
    refine List.mem_map.2 ⟨binNumber g.shape bin, ?_, binAt_binNumber inside⟩
    exact List.mem_range.2 (binNumber_lt inside)
  exact List.sublist_of_subperm_of_pairwise (List.subperm_of_subset (nodup_occupied g.shape) subset)
    h.pairwise_occupied (pairwise_bins g.shape g.total)

/-- The search of an array finds the candidates, in their order. -/
theorem Stores.search (stores : Stores g.shape bins atoms) (h : g.Holds atoms)
    (positive : ∀ k, 0 < g.shape.along k) : g.search bins = .ok (g.candidates atoms) := by
  have found : (List.range g.total).mapM (fun n => do
        return (← (BinGrid.steps g.reach).mapM (g.meet bins (binAt g.shape n))).flatten)
      = (.ok ((List.range g.total).map fun n =>
          (BinGrid.steps g.reach).flatMap (g.meetings atoms (binAt g.shape n)))
        : Except Error (List (List Encounter))) := by
    refine except_mapM_eq_map fun n hn => ?_
    have inside := binAt_inside (List.mem_range.1 hn)
    rw [except_mapM_eq_map fun offset _ => stores.meet positive inside offset]
    rfl
  rw [BinGrid.search, found, candidates, encounters_eq_steps,
    ← flatMap_of_sublist h.occupied_sublist (nodup_bins _ _), List.flatMap_map]
  · rfl
  · intro bin _ empty
    simp [meetings_of_not_occupied empty]

end Search

/-! ### Raw bins -/

/-- An atom in the bin that it is counted to have over all images of the cell, brought into the
grid. -/
def settle (shape : Vector3 Nat) (counted : Nat × Vector3 Int) : BinnedAtom :=
  ⟨counted.1, binOf shape counted.2, cellsOf shape counted.2⟩

/-- The bin of a point, counted on over all images of the cell. There are none in an open system. -/
def countedBin [Scalar α] (g : BinGrid α) (position : Vector3 α) : Vector3 Int :=
  if g.cell.isInfinite then (g.openBin position).map Nat.cast else g.rawBin position

section Raw

variable {g : BinGrid α} {counted : List (Nat × Vector3 Int)}
  (positive : ∀ k, 0 < g.shape.along k)
include positive

/-- Numbers of cells and bins are a division with remainder. -/
theorem raw_settle (a : Nat × Vector3 Int) (k : Direction) :
    (settle g.shape a).raw g.shape k = a.2.along k := by
  rw [BinnedAtom.raw, settle, binOf, cellsOf, Vector3.along_zipWith, Vector3.along_zipWith]
  exact ((div_mod_iff (positive k)).1 ⟨rfl, rfl⟩).2

/-- What is inside of the grid stays where it is. -/
theorem settle_of_inside {a : Nat × Vector3 Int}
    (inside : ∀ k, 0 ≤ a.2.along k ∧ a.2.along k < g.shape.along k) :
    settle g.shape a = ⟨a.1, a.2.map Int.toNat, Vector3.replicate 0⟩ := by
  have along (k : Direction) := (div_mod_iff (positive k) (b := a.2.along k)
    (c := 0) (m := (a.2.along k).toNat)).2 (by have := inside k; omega)
  rw [settle, BinnedAtom.mk.injEq, and_iff_right rfl]
  constructor
  · refine Vector3.ext_along fun k => ?_
    rw [binOf, Vector3.along_zipWith, Vector3.along_map, (along k).1]
  · refine Vector3.ext_along fun k => ?_
    rw [cellsOf, Vector3.along_zipWith, Vector3.along_replicate, (along k).2]

theorem place_eq_settle [Scalar α] (i : Nat) (position : Vector3 α) :
    g.place i position = settle g.shape (i, g.countedBin position) := by
  rw [place, countedBin]
  split
  · rw [settle_of_inside positive]
    · rfl
    · intro k
      have := openBin_lt positive position k
      simp only [Vector3.along_map]
      omega
  · rfl

theorem holds_settled (once : (counted.map (·.1)).Nodup)
    (inside : g.cell.shape = .infinite → ∀ a ∈ counted, ∀ k,
      0 ≤ a.2.along k ∧ a.2.along k < g.shape.along k) :
    g.Holds (counted.map (settle g.shape)) where
  distinct := by
    rw [List.map_map]
    exact once
  inside := by
    simp only [List.forall_mem_map]
    exact fun a _ => binOf_lt positive a.2
  home := by
    simp only [List.forall_mem_map]
    intro hopen a ha k
    rw [settle_of_inside positive (inside hopen a ha)]
    exact Vector3.along_replicate 0 k

end Raw

/-- The candidates for some atoms, told from their raw bins: two atoms and a number of cells that
brings the second bin within reach of the first. -/
structure Enumerated (g : BinGrid α) (counted : List (Nat × Vector3 Int)) : Prop where
  mem_iff : ∀ c, c ∈ g.candidates (counted.map (settle g.shape)) ↔ c.first < c.second ∧
    ∃ b b' : Vector3 Int, (c.first, b) ∈ counted ∧ (c.second, b') ∈ counted ∧
      (∀ k, |b'.along k + c.shift.along k * g.shape.along k - b.along k| ≤ g.reach.along k) ∧
      (g.cell.shape = .infinite → ∀ k, c.shift.along k = 0)
  once : (g.candidates (counted.map (settle g.shape))).Nodup
  /-- All bins that are asked for are in the array. -/
  searched : storeAll g.shape (counted.map (settle g.shape)) >>= g.search
    = .ok (g.candidates (counted.map (settle g.shape)))

/-- A grid enumerates its candidates, each of them once and without leaving the array of its bins,
however far from the cell the atoms are and however often the search goes around the grid. -/
theorem enumerated_of_once [Scalar α] {g : BinGrid α} {counted : List (Nat × Vector3 Int)}
    (positive : ∀ k, 0 < g.shape.along k) (once : (counted.map (·.1)).Nodup)
    (inside : g.cell.shape = .infinite → ∀ a ∈ counted, ∀ k,
      0 ≤ a.2.along k ∧ a.2.along k < g.shape.along k) :
    g.Enumerated counted ∧
      ∀ i position, g.place i position = settle g.shape (i, g.countedBin position) := by
  have holds := holds_settled positive once inside
  refine ⟨⟨fun c => ?_, nodup_candidates holds positive, ?_⟩, place_eq_settle positive⟩
  · rw [mem_candidates holds positive]
    constructor
    · rintro ⟨_, ha, _, ha', first, second, less, near, home⟩
      obtain ⟨⟨i, b⟩, hb, rfl⟩ := List.mem_map.1 ha
      obtain ⟨⟨j, b'⟩, hb', rfl⟩ := List.mem_map.1 ha'
      refine ⟨less, b, b', first ▸ hb, second ▸ hb', fun k => abs_le.2 ?_, home⟩
      simpa only [raw_settle positive] using near k
    · rintro ⟨less, b, b', hb, hb', near, home⟩
      refine ⟨_, List.mem_map_of_mem hb, _, List.mem_map_of_mem hb', rfl, rfl, less, fun k => ?_,
        home⟩
      simp only [raw_settle positive]
      exact abs_le.1 (near k)
  · obtain ⟨bins, stored, stores⟩ := exists_storeAll holds.inside
    rw [stored]
    exact stores.search holds positive

/-- A grid with two bins, that is searched up to three bins away. -/
def pairOfBins : BinGrid Float where
  cell := ⟨Matrix3.one, Matrix3.one, Matrix3.one, .triclinic⟩
  shape := ⟨2, 1, 1⟩
  reach := ⟨3, 1, 0⟩
  origin := Vector3.zero
  lengths := Vector3.zero

/-- Around such a grid the search comes to the same bin more than once, with other images of the
atoms in it. -/
theorem enumerated_pairOfBins :
    pairOfBins.Enumerated [(0, ⟨-3, 0, 0⟩), (1, ⟨4, 5, 0⟩)] ∧
      ∀ s ∈ [-5, -4, -3, -2], ⟨0, 1, ⟨s, -6, 0⟩⟩ ∈ pairOfBins.candidates
        ([(0, ⟨-3, 0, 0⟩), (1, ⟨4, 5, 0⟩)].map (settle pairOfBins.shape)) := by
  have positive (k : Direction) : 0 < pairOfBins.shape.along k := by cases k <;> decide
  have enumerated : pairOfBins.Enumerated [(0, ⟨-3, 0, 0⟩), (1, ⟨4, 5, 0⟩)] :=
    (enumerated_of_once positive (by decide) nofun).1
  refine ⟨enumerated, fun s hs => (enumerated.mem_iff _).2 ⟨Nat.zero_lt_one, ?_⟩⟩
  refine ⟨⟨-3, 0, 0⟩, ⟨4, 5, 0⟩, by simp, by simp, fun k => ?_, nofun⟩
  simp only [List.mem_cons, List.not_mem_nil, or_false] at hs
  rcases hs with rfl | rfl | rfl | rfl <;> cases k <;> decide

end Atomistic.BinGrid
