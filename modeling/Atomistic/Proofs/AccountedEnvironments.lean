import Atomistic.Proofs.GradientRows
import Atomistic.Proofs.SystemAccounts

/-!
# Environments of systems that keep their contract

The accounts of some systems decide which environments there are. The rows are put together from
numbers of systems and atoms, so they fit into labels and are distinct: the tables are there, and
finding them fails by nothing but a call. The same holds of the gradient rows of some of these
environments.
-/

namespace Atomistic

open Traced Systems

variable {σ α β γ : Type}

/-! ### Labels that are small enough -/

/-- Labels that are small enough pass their check. -/
theorem checkRow_eq {row : List Int} (small : ∀ v ∈ row, v ≤ (maxLabel : Int)) :
    checkRow row = .ok row :=
  except_mapM_eq_self fun v hv => if_pos (small v hv)

theorem mapM_checkRow_eq {rows : List (List Int)}
    (small : ∀ row ∈ rows, ∀ v ∈ row, v ≤ (maxLabel : Int)) : rows.mapM checkRow = .ok rows :=
  except_mapM_eq_self fun row hrow => checkRow_eq (small row hrow)

/-- A table of small labels is built from its own names and rows. -/
theorem Labels.checked_eq (t : Labels) (small : ∀ row ∈ t.rows, ∀ v ∈ row, v ≤ (maxLabel : Int)) :
    (do Labels.ofRows t.names (← t.rows.mapM checkRow) : Except Error Labels) = .ok t := by
  rw [mapM_checkRow_eq small]
  exact Labels.ofRows_eq_ok.2 ⟨rfl, rfl⟩

/-! ### What an account says of the environments -/

namespace Pair

variable {p : Pair α} {center neighbor : Nat}

/-- A pair joins an atom that it contains with the other one. -/
theorem joins_iff : ((center, neighbor) = p.atoms ∨ (center, neighbor) = (p.second, p.first)) ↔
    p.contains center = true ∧ p.other center = neighbor := by
  simp only [atoms, contains, other, Prod.mk.injEq, Bool.or_eq_true, beq_iff_eq]
  constructor
  · rintro (⟨rfl, rfl⟩ | ⟨rfl, rfl⟩)
    · simp
    · by_cases same : p.first = p.second <;> simp [same]
  · rintro ⟨rfl | rfl, rfl⟩
    · simp
    · by_cases same : p.first = p.second <;> simp [same]

theorem sym2_eq (h : p.contains center = true) : s(p.first, p.second) = s(center, p.other center) := by
  rcases joins_iff.2 ⟨h, rfl⟩ with same | same
  · obtain ⟨first, second⟩ := Prod.mk.inj same
    rw [second, first]
  · obtain ⟨first, second⟩ := Prod.mk.inj same
    rw [second, first, Sym2.eq_swap]

end Pair

namespace Account

/-- The species of an atom. -/
def speciesOf (a : Account α) (atom : Nat) : Int := a.species.getD atom 0

/-- The pairs seen from each of their two atoms: an environment, and the neighbor that makes the
atom have it. -/
def orientedPairs (a : Account α) : List (SpeciesCenter × Nat) :=
  a.pairs.flatMap fun p =>
    [((p.first, a.speciesOf p.first, a.speciesOf p.second), p.second),
      ((p.second, a.speciesOf p.second, a.speciesOf p.first), p.first)]

/-- The environments that the atoms have by their pairs, and by being their own neighbors if this
counts. -/
def speciesCenters (a : Account α) (includesSelf : Bool) : List SpeciesCenter :=
  let around := a.orientedPairs.map (·.1)
  if includesSelf then around ++ ownEnvironments a.species else around

variable {a : Account α} {atom : Nat}

theorem elementAt_species (there : atom < a.size) :
    elementAt a.species atom = .ok (a.speciesOf atom) := by
  rw [← a.size_species] at there
  rw [elementAt_of_some (Array.getElem?_eq_getElem there), speciesOf, Array.getD_eq_getD_getElem?,
    Array.getElem?_eq_getElem there]
  rfl

theorem speciesOf_le (a : Account α) (atom : Nat) : a.speciesOf atom ≤ (maxLabel : Int) := by
  rw [speciesOf, Array.getD_eq_getD_getElem?]
  cases h : a.species[atom]? with
  | none => simp
  | some s => exact a.species_le s (Array.mem_of_getElem? h)

theorem orientedPairs_eq (a : Account α) :
    Atomistic.orientedPairs a.species a.pairs = .ok a.orientedPairs := by
  rw [Atomistic.orientedPairs, orientedPairs, List.flatMap_def, except_mapM_eq_map]
  · rfl
  · intro p hp
    obtain ⟨first, second⟩ := a.pairs_lt p hp
    rw [elementAt_species first, elementAt_species second]
    rfl

/-- Some pair joins the two atoms. -/
def Joins (a : Account α) (center neighbor : Nat) : Prop :=
  ∃ p ∈ a.pairs, (center, neighbor) = p.atoms ∨ (center, neighbor) = (p.second, p.first)

theorem Joins.lt {center neighbor : Nat} (h : a.Joins center neighbor) :
    center < a.size ∧ neighbor < a.size := by
  obtain ⟨p, hp, joined⟩ := h
  obtain ⟨first, second⟩ := a.pairs_lt p hp
  rcases joined with e | e
  · cases e
    exact ⟨first, second⟩
  · cases e
    exact ⟨second, first⟩

theorem joins_iff {center neighbor : Nat} : a.Joins center neighbor ↔
    ∃ p ∈ a.pairs, p.contains center = true ∧ p.other center = neighbor := by
  simp only [Joins, Pair.joins_iff]

/-- If no two atoms are paired twice, different pairs of an atom have different atoms at their other
ends. -/
theorem PairsOnce.nodup_others {center : Nat} {ps : List (Pair α)} (once : a.PairsOnce)
    (sub : ps.Sublist a.pairs) (contains : ∀ p ∈ ps, p.contains center = true) :
    (ps.map (·.other center)).Nodup := by
  rw [List.Nodup, List.pairwise_map]
  refine (once.once.sublist sub).imp_of_mem fun hp hq differ same => differ ?_
  rw [Pair.sym2_eq (contains _ hp), Pair.sym2_eq (contains _ hq), same]

/-- Oriented pairs are two atoms that are joined, with the species of both. -/
theorem mem_orientedPairs {center neighbor : Nat} {alpha beta : Int} :
    ((center, alpha, beta), neighbor) ∈ a.orientedPairs ↔
      a.Joins center neighbor ∧ alpha = a.speciesOf center ∧ beta = a.speciesOf neighbor := by
  simp only [orientedPairs, Joins, List.mem_flatMap, List.mem_cons, List.not_mem_nil, or_false,
    Pair.atoms, Prod.mk.injEq]
  constructor
  · rintro ⟨p, hp, ⟨⟨rfl, rfl, rfl⟩, rfl⟩ | ⟨⟨rfl, rfl, rfl⟩, rfl⟩⟩
    · exact ⟨⟨p, hp, .inl ⟨rfl, rfl⟩⟩, rfl, rfl⟩
    · exact ⟨⟨p, hp, .inr ⟨rfl, rfl⟩⟩, rfl, rfl⟩
  · rintro ⟨⟨p, hp, ⟨rfl, rfl⟩ | ⟨rfl, rfl⟩⟩, rfl, rfl⟩
    · exact ⟨p, hp, .inl ⟨⟨rfl, rfl, rfl⟩, rfl⟩⟩
    · exact ⟨p, hp, .inr ⟨⟨rfl, rfl, rfl⟩, rfl⟩⟩

theorem mem_zipIdx_species {s : Int} :
    (s, atom) ∈ a.species.toList.zipIdx ↔ atom < a.size ∧ s = a.speciesOf atom := by
  rw [List.mem_zipIdx_iff_getElem?, Array.getElem?_toList, speciesOf, Array.getD_eq_getD_getElem?,
    ← a.size_species]
  by_cases there : atom < a.species.size
  · simp [there, eq_comm]
  · simp [there]

theorem mem_species {s : Int} : s ∈ a.species.toList ↔ ∃ atom < a.size, s = a.speciesOf atom := by
  simp only [List.mem_iff_getElem? (l := a.species.toList), ← mem_zipIdx_species,
    List.mem_zipIdx_iff_getElem?]

/-- The environments of an atom are told apart by the species that it is joined with. -/
theorem mem_speciesCenters {includesSelf : Bool} {center : Nat} {alpha beta : Int} :
    (center, alpha, beta) ∈ a.speciesCenters includesSelf ↔
      (∃ neighbor, a.Joins center neighbor ∧ alpha = a.speciesOf center ∧
        beta = a.speciesOf neighbor) ∨
      includesSelf = true ∧ center < a.size ∧ alpha = a.speciesOf center ∧
        beta = a.speciesOf center := by
  have around : (center, alpha, beta) ∈ a.orientedPairs.map (·.1) ↔ ∃ neighbor,
      a.Joins center neighbor ∧ alpha = a.speciesOf center ∧ beta = a.speciesOf neighbor := by
    simp only [← mem_orientedPairs, List.mem_map]
    constructor
    · rintro ⟨⟨_, neighbor⟩, seen, rfl⟩
      exact ⟨neighbor, seen⟩
    · rintro ⟨neighbor, seen⟩
      exact ⟨_, seen, rfl⟩
  have own : (center, alpha, beta) ∈ ownEnvironments a.species ↔
      center < a.size ∧ alpha = a.speciesOf center ∧ beta = a.speciesOf center := by
    simp only [ownEnvironments, List.mem_map, Prod.exists, mem_zipIdx_species, Prod.mk.injEq]
    constructor
    · rintro ⟨s, atom, ⟨there, rfl⟩, rfl, rfl, rfl⟩
      exact ⟨there, rfl, rfl⟩
    · rintro ⟨there, rfl, rfl⟩
      exact ⟨_, center, ⟨there, rfl⟩, rfl, rfl, rfl⟩
  cases includesSelf with
  | false => simpa [speciesCenters] using around
  | true => rw [speciesCenters, if_pos rfl, List.mem_append, around, own, eq_self, true_and]

theorem lt_of_mem_speciesCenters {includesSelf : Bool} {center : SpeciesCenter}
    (h : center ∈ a.speciesCenters includesSelf) : center.1 < a.size := by
  obtain ⟨center, alpha, beta⟩ := center
  rcases mem_speciesCenters.1 h with ⟨_, joins, -⟩ | ⟨-, there, -⟩
  · exact joins.lt.1
  · exact there

end Account

/-- The environments that a strategy finds in the first `count` systems. -/
inductive Strategy.Finds (accounts : Nat → Account α) (count : Nat) :
    Strategy α → List Int → Prop where
  | whole {i : Nat} (hi : i < count) : Finds accounts count structures [(i : Int)]
  | species {i atom : Nat} (hi : i < count) (hatom : atom < (accounts i).size) :
      Finds accounts count structureSpecies [(i : Int), (accounts i).speciesOf atom]
  | atom {cutoff : α} {i center : Nat} (hi : i < count) (hcenter : center < (accounts i).size) :
      Finds accounts count (atoms cutoff) [(i : Int), (center : Int)]
  | joined {cutoff : α} {includesSelf : Bool} {i center neighbor : Nat} (hi : i < count)
      (joins : (accounts i).Joins center neighbor) :
      Finds accounts count (atomSpecies cutoff includesSelf)
        [(i : Int), (center : Int), (accounts i).speciesOf center, (accounts i).speciesOf neighbor]
  | own {cutoff : α} {i center : Nat} (hi : i < count) (hcenter : center < (accounts i).size) :
      Finds accounts count (atomSpecies cutoff true)
        [(i : Int), (center : Int), (accounts i).speciesOf center, (accounts i).speciesOf center]

/-- All labels of environments are small enough. -/
theorem Strategy.Finds.small {accounts : Nat → Account α} {count : Nat} {s : Strategy α}
    {row : List Int} (h : s.Finds accounts count row) (count_le : count ≤ maxLabel) :
    ∀ v ∈ row, v ≤ (maxLabel : Int) := by
  have atom_le {i atom : Nat} (h : atom < (accounts i).size) : (atom : Int) ≤ (maxLabel : Int) := by
    have := (accounts i).size_le
    omega
  have species_le (i atom : Nat) := (accounts i).speciesOf_le atom
  cases h with
  | whole hi => simp; omega
  | species hi hatom => simp [species_le]; omega
  | atom hi hcenter => simp [atom_le hcenter]; omega
  | joined hi joins => simp [species_le, atom_le joins.lt.1]; omega
  | own hi hcenter => simp [species_le, atom_le hcenter]; omega

/-! ### Tables of environments -/

namespace Account

/-- The environments of all structures. -/
def structureTable (count : Nat) : Labels where
  names := ["structure"]
  rows := (List.range count).map fun (i : Nat) => [(i : Int)]
  names_valid := ⟨by decide, by decide⟩
  width := by
    intro row hrow
    obtain ⟨i, -, rfl⟩ := List.mem_map.1 hrow
    rfl
  nodup := List.nodup_range.map fun i j same => Int.natCast_inj.1 (List.singleton_inj.1 same)

/-- The environments of all structures, told apart by the species in them. -/
def structureSpeciesTable (accounts : Nat → Account α) (count : Nat) : Labels where
  names := ["structure", "alpha"]
  rows := (List.range count).flatMap fun (i : Nat) =>
    (sortedLabels (accounts i).species.toList).map fun s => [(i : Int), s]
  names_valid := ⟨by decide, by decide⟩
  width := by
    intro row hrow
    obtain ⟨i, -, hrow⟩ := List.mem_flatMap.1 hrow
    obtain ⟨s, -, rfl⟩ := List.mem_map.1 hrow
    rfl
  nodup := by
    refine nodup_flatMap_map List.nodup_range
      (fun _ _ => (pairwise_sortedLabels _).imp ne_of_lt) ?_
    intro i _ s _ i' _ s' _ same
    simp only [List.cons.injEq, Int.natCast_inj, and_true] at same
    exact same

/-- The environments of all atoms. -/
def atomTable (accounts : Nat → Account α) (count : Nat) : Labels where
  names := ["structure", "center"]
  rows := (List.range count).flatMap fun (i : Nat) =>
    (List.range (accounts i).size).map fun (center : Nat) => [(i : Int), (center : Int)]
  names_valid := namesValid_centers
  width := by
    intro row hrow
    obtain ⟨i, -, hrow⟩ := List.mem_flatMap.1 hrow
    obtain ⟨center, -, rfl⟩ := List.mem_map.1 hrow
    rfl
  nodup := by
    refine nodup_flatMap_map List.nodup_range (fun _ _ => List.nodup_range) ?_
    intro i _ center _ i' _ center' _ same
    simp only [List.cons.injEq, Int.natCast_inj, and_true] at same
    exact same

/-- The environments of all atoms, told apart by the species of their neighbors. -/
def atomSpeciesTable (accounts : Nat → Account α) (count : Nat) (includesSelf : Bool) : Labels where
  names := ["structure", "center", "alpha", "beta"]
  rows := sortedRows <| (List.range count).flatMap fun (i : Nat) =>
    ((accounts i).speciesCenters includesSelf).map fun (center, alpha, beta) =>
      [(i : Int), (center : Int), alpha, beta]
  names_valid := ⟨by decide, by decide⟩
  width := by
    intro row hrow
    obtain ⟨i, -, hrow⟩ := List.mem_flatMap.1 (mem_sortedRows.1 hrow)
    obtain ⟨center, -, rfl⟩ := List.mem_map.1 hrow
    rfl
  nodup := (pairwise_sortedRows _).imp ne_of_lt

variable {accounts : Nat → Account α} {count : Nat}

theorem mem_atomTable {row : List Int} : row ∈ (atomTable accounts count).rows ↔
    ∃ i < count, ∃ center < (accounts i).size, row = [(i : Int), (center : Int)] := by
  simp [atomTable, eq_comm]

theorem mem_atomSpeciesTable {includesSelf : Bool} {row : List Int} :
    row ∈ (atomSpeciesTable accounts count includesSelf).rows ↔
      ∃ i < count, ∃ center ∈ (accounts i).speciesCenters includesSelf,
        row = [(i : Int), (center.1 : Int), center.2.1, center.2.2] := by
  simp [atomSpeciesTable, mem_sortedRows, eq_comm]

theorem mem_structureTable (accounts : Nat → Account α) {row : List Int} :
    row ∈ (structureTable count).rows ↔ Strategy.structures.Finds accounts count row := by
  simp only [structureTable, List.mem_map, List.mem_range]
  constructor
  · rintro ⟨i, hi, rfl⟩
    exact .whole hi
  · rintro ⟨hi⟩
    exact ⟨_, hi, rfl⟩

theorem mem_structureSpeciesTable {row : List Int} :
    row ∈ (structureSpeciesTable accounts count).rows ↔
      Strategy.structureSpecies.Finds accounts count row := by
  simp only [structureSpeciesTable, List.mem_flatMap, List.mem_range, List.mem_map,
    mem_sortedLabels, mem_species]
  constructor
  · rintro ⟨i, hi, _, ⟨atom, hatom, rfl⟩, rfl⟩
    exact .species hi hatom
  · rintro (_ | ⟨hi, hatom⟩)
    exact ⟨_, hi, _, ⟨_, hatom, rfl⟩, rfl⟩

theorem mem_atomTable_iff (cutoff : α) {row : List Int} :
    row ∈ (atomTable accounts count).rows ↔ (Strategy.atoms cutoff).Finds accounts count row := by
  rw [mem_atomTable]
  constructor
  · rintro ⟨i, hi, center, hcenter, rfl⟩
    exact .atom hi hcenter
  · rintro (_ | _ | ⟨hi, hcenter⟩)
    exact ⟨_, hi, _, hcenter, rfl⟩

theorem mem_atomSpeciesTable_iff (cutoff : α) {includesSelf : Bool} {row : List Int} :
    row ∈ (atomSpeciesTable accounts count includesSelf).rows ↔
      (Strategy.atomSpecies cutoff includesSelf).Finds accounts count row := by
  rw [mem_atomSpeciesTable]
  constructor
  · rintro ⟨i, hi, ⟨center, alpha, beta⟩, hcenter, rfl⟩
    rcases mem_speciesCenters.1 hcenter with ⟨neighbor, joins, rfl, rfl⟩ | ⟨rfl, there, rfl, rfl⟩
    · exact .joined hi joins
    · exact .own hi there
  · rintro (_ | _ | _ | ⟨hi, joins⟩ | ⟨hi, hcenter⟩)
    · exact ⟨_, hi, _, mem_speciesCenters.2 (.inl ⟨_, joins, rfl, rfl⟩), rfl⟩
    · exact ⟨_, hi, _, mem_speciesCenters.2 (.inr ⟨rfl, hcenter, rfl, rfl⟩), rfl⟩

end Account

/-! ### Finding the environments -/

section Environments

variable [AtomicSystem σ α] {cutoff : α} {start : Systems σ} {accounts : Nat → Account α}
  {counts : Nat → Nat} {n : Nat} (kept : Keep cutoff start accounts)

/-- The rows of all systems. -/
theorem relies_rowsOfAll {rows : Nat → Traced (Systems σ) (List (List Int))}
    {g : Nat → List (List Int)} {calls : Set SystemCall} {counts' : Nat → Nat}
    (h : Relies (Ends cutoff start) calls (Reached cutoff start counts)
      ((List.range start.size).mapM rows) (List.Forall₂ (fun i found => found = g i)
        (List.range start.size)) (Reached cutoff start counts')) :
    Relies (Ends cutoff start) calls (Reached cutoff start counts) (Strategy.rowsOfAll rows)
      (· = (List.range start.size).flatMap g) (Reached cutoff start counts') := by
  refine (relies_bind relies_numbers fun numbers hnumbers => ?_).congr (Set.empty_union _)
  subst hnumbers
  refine relies_map h fun found each => ?_
  rw [eq_map_of_forall₂ each, List.flatMap_def]

include kept

theorem relies_atomRows {i : Nat} (there : i < start.size) (now : counts i = n) :
    Relies (Ends cutoff start) {⟨i, n, .size⟩} (Reached cutoff start counts) (Strategy.atomRows i)
      (· = (List.range (accounts i).size).map fun (center : Nat) => [(i : Int), (center : Int)])
      (Reached cutoff start counts) := by
  refine relies_map (relies_size kept there now) ?_
  rintro _ rfl
  rfl

theorem relies_speciesRows {i : Nat} (there : i < start.size) (now : counts i = n) :
    Relies (Ends cutoff start) {⟨i, n, .species⟩} (Reached cutoff start counts)
      (Strategy.speciesRows i)
      (· = (sortedLabels (accounts i).species.toList).map fun s => [(i : Int), s])
      (Reached cutoff start counts) := by
  refine relies_map (relies_species kept there now) ?_
  rintro _ rfl
  rfl

/-- Finding the environments of structures takes no call. -/
theorem relies_environments_structures : Relies (Ends cutoff start) ∅ (Reached cutoff start counts)
    (Strategy.structures : Strategy α).environments (· = Account.structureTable start.size)
    (Reached cutoff start counts) := by
  refine relies_bind_free relies_numbers ?_
  rintro _ rfl
  exact relies_ofExcept (Labels.checked_eq (Account.structureTable start.size) fun row hrow =>
    ((Account.mem_structureTable accounts).1 hrow).small kept.size_le) rfl

/-- Finding the environments of structures with species takes one call to each system. -/
theorem relies_environments_structureSpecies (now : ∀ i < start.size, counts i = n) :
    Relies (Ends cutoff start) (⋃ i ∈ List.range start.size, {⟨i, n, .species⟩})
      (Reached cutoff start counts) (Strategy.structureSpecies : Strategy α).environments
      (· = Account.structureSpeciesTable accounts start.size) (Reached cutoff start counts) := by
  have rows := relies_rowsOfAll (relies_mapM fun i (hi : i ∈ List.range start.size) =>
    relies_speciesRows kept (List.mem_range.1 hi) (now i (List.mem_range.1 hi)))
  refine relies_bind_free rows ?_
  rintro _ rfl
  exact relies_ofExcept (Labels.checked_eq (Account.structureSpeciesTable accounts start.size)
    fun row hrow => (Account.mem_structureSpeciesTable.1 hrow).small kept.size_le) rfl

/-- Finding the environments of atoms takes one call to each system. -/
theorem relies_environments_atoms {c : α} (now : ∀ i < start.size, counts i = n) :
    Relies (Ends cutoff start) (⋃ i ∈ List.range start.size, {⟨i, n, .size⟩})
      (Reached cutoff start counts) (Strategy.atoms c).environments
      (· = Account.atomTable accounts start.size) (Reached cutoff start counts) := by
  have rows := relies_rowsOfAll (relies_mapM fun i (hi : i ∈ List.range start.size) =>
    relies_atomRows kept (List.mem_range.1 hi) (now i (List.mem_range.1 hi)))
  refine relies_bind_free rows ?_
  rintro _ rfl
  exact relies_ofExcept (Labels.checked_eq (Account.atomTable accounts start.size) fun row hrow =>
    ((Account.mem_atomTable_iff c).1 hrow).small kept.size_le) rfl

theorem relies_atomSpeciesRows {includesSelf : Bool} {i : Nat} (there : i < start.size)
    (now : counts i = n) :
    Relies (Ends cutoff start) (visit i n {.species, .pairs}) (Reached cutoff start counts)
      (Strategy.atomSpeciesRows cutoff includesSelf i)
      (· = ((accounts i).speciesCenters includesSelf).map fun (center, alpha, beta) =>
        [(i : Int), (center : Int), alpha, beta])
      (Reached cutoff start (raise counts [i])) := by
  refine relies_visit there now fun counts now => ?_
  rw [Set.image_pair]
  refine relies_bind (relies_species kept there now) ?_
  rintro _ rfl
  refine relies_bind_free (relies_pairs kept there now) ?_
  rintro _ rfl
  exact relies_of_ok_bind (accounts i).orientedPairs_eq (relies_pure rfl)

/-- Finding the environments of atoms with species takes a visit to each system. -/
theorem relies_environments_atomSpecies {includesSelf : Bool}
    (now : ∀ i < start.size, counts i = n) :
    Relies (Ends cutoff start) (⋃ i ∈ List.range start.size, visit i n {.species, .pairs})
      (Reached cutoff start counts) (Strategy.atomSpecies cutoff includesSelf).environments
      (· = Account.atomSpeciesTable accounts start.size includesSelf)
      (Reached cutoff start (raise counts (List.range start.size))) := by
  have row (i : Nat) (hi : i ∈ List.range start.size) (counts : Nat → Nat) (now : counts i = n) :=
    @relies_atomSpeciesRows σ α _ cutoff start accounts counts n kept includesSelf i
      (List.mem_range.1 hi) now
  have rows := relies_rowsOfAll (relies_mapM_visits List.nodup_range
    (fun i hi => now i (List.mem_range.1 hi)) row)
  refine relies_bind_free rows ?_
  rintro _ rfl
  exact relies_ofExcept
    (Labels.checked_eq (Account.atomSpeciesTable accounts start.size includesSelf) fun row hrow =>
      ((Account.mem_atomSpeciesTable_iff cutoff).1 hrow).small kept.size_le) rfl

/-- Strategies whose environments are those of the systems, with neighbors up to the cutoff. -/
inductive Strategy.OfSystems (cutoff : α) : Strategy α → Prop where
  | structures : OfSystems cutoff structures
  | structureSpecies : OfSystems cutoff structureSpecies
  | atoms : OfSystems cutoff (atoms cutoff)
  | atomSpecies (includesSelf : Bool) : OfSystems cutoff (atomSpecies cutoff includesSelf)

/-- Where all calls are answered, a strategy finds the environments that there are. -/
theorem exists_environments (answering : Answering cutoff start accounts) {s : Strategy α}
    (hs : s.OfSystems cutoff) : ∃ all, (s.environments.outcome start).1 = .ok all ∧
      all.names = s.names ∧ ∀ row, row ∈ all.rows ↔ s.Finds accounts start.size row := by
  have found {calls : Set SystemCall} {q : Systems σ → Prop} {table : Labels}
      (h : Relies (Ends cutoff start) calls (Reached cutoff start fun _ => 0) s.environments
        (· = table) q)
      (plain : ∀ i round atom, ⟨i, round, .pairsContaining atom⟩ ∉ calls) :
      (s.environments.outcome start).1 = .ok table := by
    obtain ⟨_, ok, rfl, -⟩ := (h.ensures_ok reached_start (answering.of_plain plain)).outcome
    exact ok
  cases hs with
  | structures =>
    exact ⟨_, found (relies_environments_structures kept) (by simp), rfl,
      fun row => Account.mem_structureTable accounts⟩
  | structureSpecies =>
    exact ⟨_, found (relies_environments_structureSpecies kept fun _ _ => rfl) (by simp), rfl,
      fun row => Account.mem_structureSpeciesTable⟩
  | atoms =>
    exact ⟨_, found (relies_environments_atoms kept fun _ _ => rfl) (by simp), rfl,
      fun row => Account.mem_atomTable_iff cutoff⟩
  | atomSpecies includesSelf =>
    exact ⟨_, found (relies_environments_atomSpecies kept fun _ _ => rfl) (by simp [visit]), rfl,
      fun row => Account.mem_atomSpeciesTable_iff cutoff⟩

end Environments

/-! ### Atoms in systems -/

theorem mapM_positionOfLabel (systems : List Nat) :
    (systems.map fun (i : Nat) => (i : Int)).mapM positionOfLabel = .ok systems := by
  rw [except_mapM_eq_ok, List.forall₂_map_left_iff, List.forall₂_same]
  exact fun i _ => positionOfLabel_eq_ok.2 rfl

namespace Labels

/-- The systems that some environments are in. -/
def systems (t : Labels) : List Nat :=
  (sortedLabels (t.rows.map fun row => row.headD 0)).map Int.toNat

/-- All environments are those of atoms in the first `count` systems. -/
def Within (t : Labels) (accounts : Nat → Account α) (count : Nat) : Prop :=
  ∀ row ∈ t.rows, ∃ i < count, ∃ center < (accounts i).size,
    row[0]? = some (i : Int) ∧ row[1]? = some (center : Int)

variable {t : Labels} {accounts : Nat → Account α} {count : Nat}

theorem within_of_subset_atomTable (sub : t.rows ⊆ (Account.atomTable accounts count).rows) :
    t.Within accounts count := by
  intro row hrow
  obtain ⟨i, hi, center, hcenter, rfl⟩ := Account.mem_atomTable.1 (sub hrow)
  exact ⟨i, hi, center, hcenter, rfl, rfl⟩

theorem within_of_subset_atomSpeciesTable {includesSelf : Bool}
    (sub : t.rows ⊆ (Account.atomSpeciesTable accounts count includesSelf).rows) :
    t.Within accounts count := by
  intro row hrow
  obtain ⟨i, hi, center, hcenter, rfl⟩ := Account.mem_atomSpeciesTable.1 (sub hrow)
  exact ⟨i, hi, center.1, Account.lt_of_mem_speciesCenters hcenter, rfl, rfl⟩

/-- The systems of such environments are found. -/
theorem Within.requestedSystems_eq (within : t.Within accounts count) :
    requestedSystems t = .ok (t.systems.map fun (i : Nat) => (i : Int)) := by
  have first : ∀ row ∈ t.rows, labelAt row 0 = .ok (row.headD 0) ∧ 0 ≤ row.headD 0 := by
    intro row hrow
    obtain ⟨i, -, -, -, there, -⟩ := within row hrow
    cases row with
    | nil => cases there
    | cons v row =>
      cases there
      exact ⟨rfl, Int.natCast_nonneg i⟩
  have natural : ∀ label ∈ sortedLabels (t.rows.map fun row => row.headD 0), 0 ≤ label := by
    intro label hlabel
    obtain ⟨row, hrow, rfl⟩ := List.mem_map.1 (mem_sortedLabels.1 hlabel)
    exact (first row hrow).2
  have back : t.systems.map (fun (i : Nat) => (i : Int))
      = sortedLabels (t.rows.map fun row => row.headD 0) := by
    rw [systems, List.map_map]
    exact (List.map_congr_left fun label h => Int.toNat_of_nonneg (natural label h)).trans
      (List.map_id _)
  rw [back, requestedSystems, except_mapM_eq_map fun row hrow => (first row hrow).1]
  rfl

theorem Within.mem_systems (within : t.Within accounts count) {i : Nat} :
    i ∈ t.systems ↔ ∃ row ∈ t.rows, row[0]? = some (i : Int) := by
  have among : (i : Int) ∈ t.systems.map (fun (i : Nat) => (i : Int))
      ↔ ∃ row ∈ t.rows, labelAt row 0 = .ok (i : Int) :=
    mem_of_requestedSystems within.requestedSystems_eq
  simp only [labelAt_eq_ok] at among
  rw [← among, List.mem_map]
  constructor
  · exact fun hi => ⟨i, hi, rfl⟩
  · rintro ⟨j, hj, same⟩
    cases Int.natCast_inj.1 same
    exact hj

theorem Within.lt_of_mem_systems (within : t.Within accounts count) {i : Nat}
    (hi : i ∈ t.systems) : i < count := by
  obtain ⟨row, hrow, there⟩ := within.mem_systems.1 hi
  obtain ⟨j, hj, -, -, first, -⟩ := within row hrow
  cases Int.natCast_inj.1 (Option.some.inj (first.symm.trans there))
  exact hj

theorem Within.nodup_systems (within : t.Within accounts count) : t.systems.Nodup :=
  nodup_of_requestedSystems within.requestedSystems_eq (mapM_positionOfLabel t.systems)

end Labels

end Atomistic
