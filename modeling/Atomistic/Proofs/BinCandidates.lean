import Atomistic.Neighbors.BinGrid
import Atomistic.Proofs.Directions
import Mathlib.Data.List.Nodup

/-!
# The candidates of a grid

Which candidates a grid has for some atoms is told without its bins: the bin of an atom is counted
on over all images of the cell, and two atoms are a candidate for a number of cells when that makes
their bins at most `reach` apart in every direction. Each candidate is there once, also when the grid
has fewer bins than are looked at around one of them.
-/

namespace Atomistic

/-- The bin of an atom, counted on over all images of the cell. -/
def BinnedAtom.raw (shape : Vector3 Nat) (a : BinnedAtom) (k : Direction) : Int :=
  a.shift.along k * shape.along k + a.bin.along k

namespace BinGrid

variable {α : Type} {g : BinGrid α} {atoms : List BinnedAtom}

/-- Atoms with numbers of their own are in bins of the grid, and the atoms of an open system in the
only cell there is. -/
structure Holds (g : BinGrid α) (atoms : List BinnedAtom) : Prop where
  distinct : (atoms.map (·.atom)).Nodup
  inside : ∀ a ∈ atoms, ∀ k, a.bin.along k < g.shape.along k
  home : g.cell.shape = .infinite → ∀ a ∈ atoms, ∀ k, a.shift.along k = 0

/-- Two bins, counted on over all images of the cell, that are within reach of each other. -/
def Near (g : BinGrid α) (b c : Direction → Int) : Prop :=
  ∀ k, -g.reach.along k ≤ c k - b k ∧ c k - b k ≤ g.reach.along k

/-! ### Offsets and bins -/

theorem mem_offsets {n d : Int} : d ∈ offsets n ↔ -n ≤ d ∧ d ≤ n := by
  rw [offsets, List.mem_map]
  constructor
  · rintro ⟨k, hk, rfl⟩
    rw [List.mem_range] at hk
    omega
  · rintro ⟨low, high⟩
    refine ⟨(d + n).toNat, ?_, by omega⟩
    rw [List.mem_range]
    omega

theorem nodup_offsets (n : Int) : (offsets n).Nodup := by
  refine List.Nodup.map (fun i j h => ?_) List.nodup_range
  omega

theorem mem_byBin {bin : Vector3 Nat} : bin ∈ byBin atoms ↔ ∃ a ∈ atoms, a.bin = bin := by
  induction atoms with
  | nil => simp [byBin]
  | cons a atoms ih =>
    have step : byBin (a :: atoms)
        = (byBin atoms).insert a.bin (a :: (byBin atoms).getD a.bin []) := rfl
    rw [step, Std.HashMap.mem_insert, ih, List.exists_mem_cons_iff, beq_iff_eq]

theorem mem_occupied {shape bin : Vector3 Nat} :
    bin ∈ occupied shape atoms ↔ ∃ a ∈ atoms, a.bin = bin := by
  rw [occupied, (List.mergeSort_perm _ _).mem_iff, Std.HashMap.mem_keys, mem_byBin]

theorem nodup_occupied (shape : Vector3 Nat) : (occupied shape atoms).Nodup := by
  rw [occupied, (List.mergeSort_perm _ _).nodup_iff]
  exact Std.HashMap.distinct_keys.imp fun h => by simpa using h

/-- Quotient and remainder are the only way to count a bin from the cell that it is in. -/
theorem div_mod_iff {n : Nat} (positive : 0 < n) {b c : Int} {m : Nat} :
    (b % n).toNat = m ∧ b / n = c ↔ m < n ∧ c * n + m = b := by
  have unique := Int.ediv_emod_unique (a := b) (q := c) (r := m) (Int.natCast_pos.2 positive)
  have bound := Int.emod_nonneg b (show (n : Int) ≠ 0 by omega)
  rw [Int.mul_comm c]
  constructor
  · rintro ⟨rfl, hc⟩
    obtain ⟨sum, -, below⟩ := unique.1 ⟨hc, by omega⟩
    omega
  · rintro ⟨below, sum⟩
    obtain ⟨hc, hm⟩ := unique.2 ⟨by omega, by omega, by omega⟩
    omega

section Neighbor

variable {bin next : Vector3 Nat} {offset cells : Vector3 Int}

theorem neighbor?_of_open (hopen : g.cell.shape = .infinite) :
    g.neighbor? bin offset = some (next, cells) ↔
      ∀ k, next.along k < g.shape.along k ∧
        (next.along k : Int) = bin.along k + offset.along k ∧ cells.along k = 0 := by
  unfold neighbor?
  dsimp only
  rw [UnitCell.isInfinite, hopen, beq_self_eq_true, if_pos rfl]
  constructor
  · intro h k
    split at h
    · next inside =>
      rw [Option.some.injEq, Prod.mk.injEq] at h
      obtain ⟨rfl, rfl⟩ := h
      have here := Vector3.all_eq_true.1 inside k
      rw [Vector3.along_zipWith, Vector3.along_zipWith, id, decide_eq_true_eq] at here
      rw [Vector3.along_map, Vector3.along_zipWith, Vector3.along_replicate]
      omega
    · cases h
  · intro sum
    rw [if_pos, Option.some.injEq, Prod.mk.injEq]
    · constructor
      · refine Vector3.ext_along fun k => ?_
        have here := sum k
        rw [Vector3.along_map, Vector3.along_zipWith]
        omega
      · exact Vector3.ext_along fun k => by rw [Vector3.along_replicate, (sum k).2.2]
    · refine Vector3.all_eq_true.2 fun k => ?_
      have here := sum k
      rw [Vector3.along_zipWith, Vector3.along_zipWith, id, decide_eq_true_eq]
      omega

theorem neighbor?_of_periodic (hopen : g.cell.shape ≠ .infinite)
    (positive : ∀ k, 0 < g.shape.along k) :
    g.neighbor? bin offset = some (next, cells) ↔
      ∀ k, next.along k < g.shape.along k ∧
        cells.along k * g.shape.along k + next.along k = bin.along k + offset.along k := by
  have periodic : g.cell.isInfinite = false := by simpa [UnitCell.isInfinite] using hopen
  have along (k : Direction) := div_mod_iff (positive k)
    (b := bin.along k + offset.along k) (c := cells.along k) (m := next.along k)
  unfold neighbor?
  dsimp only
  rw [periodic, if_neg Bool.false_ne_true, Option.some.injEq, Prod.mk.injEq]
  constructor
  · rintro ⟨hnext, hcells⟩ k
    refine (along k).1 ⟨?_, ?_⟩
    · rw [← hnext, binOf, Vector3.along_zipWith, Vector3.along_zipWith]
    · rw [← hcells, cellsOf, Vector3.along_zipWith, Vector3.along_zipWith]
  · intro sum
    constructor
    · refine Vector3.ext_along fun k => ?_
      rw [binOf, Vector3.along_zipWith, Vector3.along_zipWith]
      exact ((along k).2 (sum k)).1
    · refine Vector3.ext_along fun k => ?_
      rw [cellsOf, Vector3.along_zipWith, Vector3.along_zipWith]
      exact ((along k).2 (sum k)).2

/-- The bin at an offset is the one whose number, counted from the cell that it is in, is the sum. -/
theorem neighbor?_eq_some (positive : ∀ k, 0 < g.shape.along k) :
    g.neighbor? bin offset = some (next, cells) ↔
      (∀ k, next.along k < g.shape.along k ∧
        cells.along k * g.shape.along k + next.along k = bin.along k + offset.along k) ∧
      (g.cell.shape = .infinite → ∀ k, cells.along k = 0) := by
  by_cases hopen : g.cell.shape = .infinite
  · rw [neighbor?_of_open hopen]
    constructor
    · refine fun sum => ⟨fun k => ?_, fun _ k => (sum k).2.2⟩
      obtain ⟨inside, here, home⟩ := sum k
      rw [home, Int.zero_mul, Int.zero_add]
      exact ⟨inside, here⟩
    · rintro ⟨sum, home⟩ k
      obtain ⟨inside, here⟩ := sum k
      rw [home hopen, Int.zero_mul, Int.zero_add] at here
      exact ⟨inside, here, home hopen k⟩
  · rw [neighbor?_of_periodic hopen positive]
    exact ⟨fun sum => ⟨sum, fun h => absurd h hopen⟩, And.left⟩

end Neighbor

/-! ### Encounters -/

section Visits

variable {next : Vector3 Nat → Vector3 Int → Option (Vector3 Nat × Vector3 Int)}

/-- The encounters of the atoms of a bin with those of the bin that an offset leads to. -/
def meetingsBy (next : Vector3 Nat → Vector3 Int → Option (Vector3 Nat × Vector3 Int))
    (atoms : List BinnedAtom) (bin : Vector3 Nat) (offset : Vector3 Int) : List Encounter :=
  match next bin offset with
  | none => []
  | some (other, cells) =>
    (atoms.filter (·.bin == bin)).flatMap fun a =>
      (atoms.filter (·.bin == other)).filterMap fun b =>
        if a.atom < b.atom then some ⟨cells, a, b⟩ else none

theorem encountersBy_eq : g.encountersBy next atoms =
    (occupied g.shape atoms).flatMap fun bin =>
      (offsets g.reach.x).flatMap fun dx =>
        (offsets g.reach.y).flatMap fun dy =>
          (offsets g.reach.z).flatMap fun dz => meetingsBy next atoms bin ⟨dx, dy, dz⟩ := by
  simp only [encountersBy, getD_byBin]
  rfl

theorem mem_meetingsBy {bin : Vector3 Nat} {offset : Vector3 Int} {e : Encounter} :
    e ∈ meetingsBy next atoms bin offset ↔ e.here ∈ atoms ∧ e.there ∈ atoms ∧ e.here.bin = bin ∧
      e.here.atom < e.there.atom ∧ next bin offset = some (e.there.bin, e.cells) := by
  unfold meetingsBy
  split
  · next h => simp [h]
  · next other cells h =>
    simp only [List.mem_flatMap, List.mem_filterMap, List.mem_filter, beq_iff_eq]
    constructor
    · rintro ⟨a, ⟨ha, hbin⟩, b, ⟨hb, hother⟩, he⟩
      split at he
      · next less =>
        cases he
        exact ⟨ha, hb, hbin, less, by rw [h, hother]⟩
      · cases he
    · rintro ⟨here, there, hbin, less, hoffset⟩
      rw [h, Option.some.injEq, Prod.mk.injEq] at hoffset
      refine ⟨e.here, ⟨here, hbin⟩, e.there, ⟨there, hoffset.1.symm⟩, ?_⟩
      rw [if_pos less, hoffset.2]

theorem mem_encountersBy {e : Encounter} :
    e ∈ g.encountersBy next atoms ↔ e.here ∈ atoms ∧ e.there ∈ atoms ∧
      e.here.atom < e.there.atom ∧ ∃ offset : Vector3 Int,
        (∀ k, -g.reach.along k ≤ offset.along k ∧ offset.along k ≤ g.reach.along k) ∧
        next e.here.bin offset = some (e.there.bin, e.cells) := by
  simp only [encountersBy_eq, List.mem_flatMap, mem_meetingsBy, mem_offsets, mem_occupied]
  constructor
  · rintro ⟨bin, -, dx, hx, dy, hy, dz, hz, here, there, rfl, less, hoffset⟩
    refine ⟨here, there, less, ⟨dx, dy, dz⟩, fun k => ?_, hoffset⟩
    cases k with
    | x => exact hx
    | y => exact hy
    | z => exact hz
  · rintro ⟨here, there, less, offset, near, hoffset⟩
    exact ⟨_, ⟨_, here, rfl⟩, offset.x, near .x, offset.y, near .y, offset.z, near .z, here, there,
      rfl, less, hoffset⟩

end Visits

/-- The encounters of the atoms of a bin with those of the bin at some offset. -/
def meetings (g : BinGrid α) (atoms : List BinnedAtom) (bin : Vector3 Nat)
    (offset : Vector3 Int) : List Encounter :=
  meetingsBy g.neighbor? atoms bin offset

theorem encounters_eq : g.encounters atoms =
    (occupied g.shape atoms).flatMap fun bin =>
      (offsets g.reach.x).flatMap fun dx =>
        (offsets g.reach.y).flatMap fun dy =>
          (offsets g.reach.z).flatMap fun dz => g.meetings atoms bin ⟨dx, dy, dz⟩ :=
  encountersBy_eq

theorem mem_meetings {bin : Vector3 Nat} {offset : Vector3 Int} {e : Encounter} :
    e ∈ g.meetings atoms bin offset ↔ e.here ∈ atoms ∧ e.there ∈ atoms ∧ e.here.bin = bin ∧
      e.here.atom < e.there.atom ∧ g.neighbor? bin offset = some (e.there.bin, e.cells) :=
  mem_meetingsBy

/-- The offset of the bins of an encounter. -/
def Encounter.offset (shape : Vector3 Nat) (e : Encounter) (k : Direction) : Int :=
  e.cells.along k * shape.along k + e.there.bin.along k - e.here.bin.along k

theorem Encounter.offset_of_neighbor? (positive : ∀ k, 0 < g.shape.along k) {e : Encounter}
    {offset : Vector3 Int} (h : g.neighbor? e.here.bin offset = some (e.there.bin, e.cells))
    (k : Direction) : e.offset g.shape k = offset.along k := by
  have sum := ((neighbor?_eq_some positive).1 h).1 k
  rw [Encounter.offset]
  omega

/-- Atoms in bins of the grid are met when the offset of their bins is within reach. -/
theorem Holds.mem_encounters (h : g.Holds atoms) (positive : ∀ k, 0 < g.shape.along k)
    {e : Encounter} :
    e ∈ g.encounters atoms ↔ e.here ∈ atoms ∧ e.there ∈ atoms ∧ e.here.atom < e.there.atom ∧
      (∀ k, -g.reach.along k ≤ e.offset g.shape k ∧ e.offset g.shape k ≤ g.reach.along k) ∧
      (g.cell.shape = .infinite → ∀ k, e.cells.along k = 0) := by
  rw [encounters, mem_encountersBy]
  constructor
  · rintro ⟨here, there, less, offset, near, hoffset⟩
    refine ⟨here, there, less, fun k => ?_, ((neighbor?_eq_some positive).1 hoffset).2⟩
    rw [Encounter.offset_of_neighbor? positive hoffset]
    exact near k
  · rintro ⟨here, there, less, near, home⟩
    refine ⟨here, there, less, Vector3.ofDirections (e.offset g.shape), fun k => ?_, ?_⟩
    · rw [Vector3.along_ofDirections]
      exact near k
    · refine (neighbor?_eq_some positive).2 ⟨fun k => ⟨h.inside _ there k, ?_⟩, home⟩
      rw [Vector3.along_ofDirections, Encounter.offset]
      omega

/-- Parts without repetition, from each of whose elements the part can be told, have no element in
common. -/
theorem nodup_flatMap_of_key {β γ : Type} {parts : List β} {f : β → List γ} (key : γ → β)
    (nodup : parts.Nodup) (each : ∀ b ∈ parts, (f b).Nodup)
    (determined : ∀ b ∈ parts, ∀ c ∈ f b, key c = b) : (parts.flatMap f).Nodup := by
  refine List.nodup_flatMap.2 ⟨each, nodup.imp_of_mem fun hb hb' ne => ?_⟩
  intro c hc hc'
  exact ne ((determined _ hb c hc).symm.trans (determined _ hb' c hc'))

theorem nodup_meetings (nodup : atoms.Nodup) (bin : Vector3 Nat) (offset : Vector3 Int) :
    (g.meetings atoms bin offset).Nodup := by
  unfold meetings meetingsBy
  split
  · exact .nil
  · refine nodup_flatMap_of_key Encounter.here (nodup.filter _) (fun a _ => ?_) fun a _ e he => ?_
    · refine (nodup.filter _).filterMap fun b b' e he he' => ?_
      split at he <;> split at he' <;> simp_all
      obtain ⟨-, rfl⟩ := he
      exact congrArg Encounter.there he'.symm
    · obtain ⟨b, -, he⟩ := List.mem_filterMap.1 he
      split at he
      · cases he
        rfl
      · cases he

theorem offset_of_mem_meetings (positive : ∀ k, 0 < g.shape.along k) {bin : Vector3 Nat}
    {offset : Vector3 Int} {e : Encounter} (h : e ∈ g.meetings atoms bin offset) (k : Direction) :
    e.offset g.shape k = offset.along k := by
  obtain ⟨-, -, rfl, -, hoffset⟩ := mem_meetings.1 h
  exact Encounter.offset_of_neighbor? positive hoffset k

theorem nodup_encounters (positive : ∀ k, 0 < g.shape.along k) (nodup : atoms.Nodup) :
    (g.encounters atoms).Nodup := by
  rw [encounters_eq]
  refine nodup_flatMap_of_key (·.here.bin) (nodup_occupied _) (fun bin _ => ?_) ?_
  · refine nodup_flatMap_of_key (·.offset g.shape .x) (nodup_offsets _) (fun dx _ => ?_) ?_
    · refine nodup_flatMap_of_key (·.offset g.shape .y) (nodup_offsets _) (fun dy _ => ?_) ?_
      · refine nodup_flatMap_of_key (·.offset g.shape .z) (nodup_offsets _) (fun dz _ => ?_) ?_
        · exact nodup_meetings nodup bin _
        · exact fun dz _ e he => offset_of_mem_meetings positive he .z
      · intro dy _ e he
        obtain ⟨dz, -, he⟩ := List.mem_flatMap.1 he
        exact offset_of_mem_meetings positive he .y
    · intro dx _ e he
      obtain ⟨dy, -, he⟩ := List.mem_flatMap.1 he
      obtain ⟨dz, -, he⟩ := List.mem_flatMap.1 he
      exact offset_of_mem_meetings positive he .x
  · intro bin _ e he
    obtain ⟨dx, -, he⟩ := List.mem_flatMap.1 he
    obtain ⟨dy, -, he⟩ := List.mem_flatMap.1 he
    obtain ⟨dz, -, he⟩ := List.mem_flatMap.1 he
    exact (mem_meetings.1 he).2.2.1

/-! ### Candidates -/

theorem Encounter.along_shift (e : Encounter) (k : Direction) :
    e.candidate.shift.along k
      = e.cells.along k + e.here.shift.along k - e.there.shift.along k := by
  cases k <;> rfl

theorem Holds.nodup (h : g.Holds atoms) : atoms.Nodup := h.distinct.of_map

/-- Atoms are told apart by their numbers. -/
theorem Holds.eq_of_atom_eq (h : g.Holds atoms) {a b : BinnedAtom} (ha : a ∈ atoms) (hb : b ∈ atoms)
    (eq : a.atom = b.atom) : a = b :=
  List.inj_on_of_nodup_map h.distinct ha hb eq

theorem Encounter.offset_eq (shape : Vector3 Nat) (e : Encounter) (k : Direction) :
    e.offset shape k = e.there.raw shape k + e.candidate.shift.along k * shape.along k
      - e.here.raw shape k := by
  rw [Encounter.along_shift, Encounter.offset, BinnedAtom.raw, BinnedAtom.raw, Int.sub_mul,
    Int.add_mul]
  omega

theorem mem_candidates (h : g.Holds atoms) (positive : ∀ k, 0 < g.shape.along k) {c : Candidate} :
    c ∈ g.candidates atoms ↔ ∃ a ∈ atoms, ∃ b ∈ atoms, a.atom = c.first ∧ b.atom = c.second ∧
      c.first < c.second ∧
      g.Near (a.raw g.shape) (fun k => b.raw g.shape k + c.shift.along k * g.shape.along k) ∧
      (g.cell.shape = .infinite → ∀ k, c.shift.along k = 0) := by
  rw [candidates, List.mem_map]
  constructor
  · rintro ⟨e, he, rfl⟩
    obtain ⟨here, there, less, near, home⟩ := (h.mem_encounters positive).1 he
    refine ⟨e.here, here, e.there, there, rfl, rfl, less, fun k => ?_, fun hopen k => ?_⟩
    · rw [← Encounter.offset_eq]
      exact near k
    · rw [Encounter.along_shift, home hopen, h.home hopen _ here, h.home hopen _ there]
      rfl
  · rintro ⟨a, ha, b, hb, hfirst, hsecond, less, near, home⟩
    -- the shift leaves one choice for the cells between the two bins
    let e : Encounter := ⟨Vector3.ofDirections fun k =>
      c.shift.along k - a.shift.along k + b.shift.along k, a, b⟩
    have shift : e.candidate.shift = c.shift := by
      refine Vector3.ext_along fun k => ?_
      rw [Encounter.along_shift, Vector3.along_ofDirections]
      dsimp only [e]
      omega
    refine ⟨e, (h.mem_encounters positive).2 ⟨ha, hb, ?_, fun k => ?_, fun hopen k => ?_⟩, ?_⟩
    · rw [hfirst, hsecond]
      exact less
    · rw [Encounter.offset_eq, shift]
      exact near k
    · rw [Vector3.along_ofDirections, home hopen, h.home hopen a ha, h.home hopen b hb]
      rfl
    · cases c
      exact congr (congr (congrArg Candidate.mk hfirst) hsecond) shift

theorem nodup_candidates (h : g.Holds atoms) (positive : ∀ k, 0 < g.shape.along k) :
    (g.candidates atoms).Nodup := by
  refine List.Nodup.map_on (fun e he e' he' same => ?_) (nodup_encounters positive h.nodup)
  obtain ⟨here, there, -, -⟩ := mem_encountersBy.1 he
  obtain ⟨here', there', -, -⟩ := mem_encountersBy.1 he'
  have first := h.eq_of_atom_eq here here' (congrArg Candidate.first same)
  have second := h.eq_of_atom_eq there there' (congrArg Candidate.second same)
  have cells : e.cells = e'.cells := by
    refine Vector3.ext_along fun k => ?_
    have shift : e.candidate.shift.along k = e'.candidate.shift.along k := by rw [same]
    rw [Encounter.along_shift, Encounter.along_shift, first, second] at shift
    omega
  cases e
  cases e'
  exact congr (congr (congrArg Encounter.mk cells) first) second

/-! ### Sums that fit in words -/

theorem isWord_iff {n : Int} : isWord n = true ↔ -0x80000000 ≤ n ∧ n < 0x80000000 := by
  rw [isWord, Bool.and_eq_true, decide_eq_true_eq, decide_eq_true_eq]

theorem fitsWords_iff :
    g.fitsWords = true ↔ ∀ k, isWord ((g.shape.along k : Int) - 1 + g.reach.along k) = true := by
  rw [fitsWords, Vector3.all_eq_true]
  exact forall_congr' fun k => by rw [Vector3.along_zipWith, id]

theorem Encounter.fitsWords_iff {e : Encounter} : e.fitsWords = true ↔ ∀ k,
    isWord (e.cells.along k + e.here.shift.along k) = true ∧
    isWord (e.cells.along k + e.here.shift.along k - e.there.shift.along k) = true := by
  rw [Encounter.fitsWords, Bool.and_eq_true, Bool.and_eq_true, Bool.and_eq_true, Bool.and_eq_true,
    Bool.and_eq_true]
  constructor
  · rintro ⟨⟨hx, hy⟩, hz⟩ k
    cases k with
    | x => exact hx
    | y => exact hy
    | z => exact hz
  · exact fun h => ⟨⟨h .x, h .y⟩, h .z⟩

end BinGrid

end Atomistic
