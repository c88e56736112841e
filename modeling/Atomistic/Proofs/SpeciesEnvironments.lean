import Atomistic.Proofs.AccountedEnvironments
import Atomistic.Scalar.Binary64

/-!
# Which environments with species there are

Environments told apart by species are found in one visit to each system, one after the other: the
system is asked for its neighbors, and then tells its species and its pairs. A visit leaves the
systems behind it as they are, so what each of them tells when it is visited is all that matters;
how often it would answer, and what else, does not. Several neighbors of one species make one
environment, and atoms that are their own neighbors may have an environment that a pair gives them
too: the rows are a set, and its order is that of its labels.
-/

namespace Atomistic

open Traced Systems

variable {σ α β γ s : Type}

/-! ### Visits in a row -/

namespace Traced

/-- One after the other, computations settle if each does in the states that the one before it
left. -/
theorem settles_mapM_range' {p : Nat → s → Prop} {f : Nat → Traced s β} {g : Nat → β} {n : Nat}
    (h : ∀ i < n, Settles (p i) (f i) (.ok (g i)) (p (i + 1))) (m : Nat) : ∀ i, i + m ≤ n →
      Settles (p i) ((List.range' i m).mapM f) (.ok ((List.range' i m).map g)) (p (i + m)) := by
  induction m with
  | zero => exact fun i _ => settles_pure []
  | succ m ih =>
    intro i within
    rw [List.range'_succ, List.mapM_cons, List.map_cons, Nat.add_comm m 1, ← Nat.add_assoc]
    refine settles_ok_bind (h i (by omega)) ?_
    exact settles_ok_bind (ih (i + 1) (by omega)) (settles_pure _)

end Traced

/-- Asked for its neighbors, the system computes them, and then it tells the species and the pairs
of the account. -/
def Account.ToldBy [AtomicSystem σ α] (a : Account α) (cutoff : α) (s : σ) : Prop :=
  Ensures (AtomicSystem.computeNeighbors cutoff) s fun r w =>
    r = .ok () ∧ AtomicSystem.species w = .ok a.species ∧ AtomicSystem.pairs w = .ok a.pairs

namespace Systems

/-- The systems from number `k` on were not visited yet. -/
structure Awaiting (systems : Systems σ) (k : Nat) (v : Systems σ) : Prop where
  size : v.size = systems.size
  later : ∀ i, k ≤ i → v[i]? = systems[i]?

variable {systems v : Systems σ} {k : Nat}

/-- A system that is there answers. -/
theorem ensures_ask_bind [AtomicSystem σ α] {i : Nat} {w : σ} {question : σ → Except Error β}
    {b : β} {f : β → Traced (Systems σ) γ} {last : Except Error γ → Systems σ → Prop}
    (there : v[i]? = some w) (answer : question w = .ok b) (rest : Ensures (f b) v last) :
    Ensures (ask i question >>= f) v last := by
  refine ensures_bind (ensures_systemsAsk ?_)
  rw [elementAt_of_some there]
  change andThen f last (question w) v
  rw [answer]
  exact rest

/-- A visit changes the system that is visited. -/
theorem Awaiting.setIfInBounds (h : Awaiting systems k v) (w : σ) :
    Awaiting systems (k + 1) (v.setIfInBounds k w) where
  size := by simp [h.size]
  later i hi := by
    rw [Array.getElem?_setIfInBounds_ne (by omega)]
    exact h.later i (by omega)

end Systems

variable [AtomicSystem σ α] {systems : Systems σ} {cutoff : α} {accounts : Nat → Account α}
  {includesSelf : Bool}

/-- The system that is visited gives its rows. -/
theorem settles_atomSpeciesRows {i : Nat} (there : i < systems.size)
    (told : ∀ s, systems[i]? = some s → (accounts i).ToldBy cutoff s) :
    Settles (Awaiting systems i) (Strategy.atomSpeciesRows cutoff includesSelf i)
      (.ok (((accounts i).speciesCenters includesSelf).map fun (center, alpha, beta) =>
        [(i : Int), (center : Int), alpha, beta]))
      (Awaiting systems (i + 1)) := by
  intro v hv
  have here : v[i]? = some systems[i] := (hv.later i le_rfl).trans (Array.getElem?_eq_getElem there)
  refine ensures_bind (ensures_atIndex ?_ fun missing => by cases here.symm.trans missing)
  intro s hs
  cases here.symm.trans hs
  refine ensures_mono (told _ (Array.getElem?_eq_getElem there)) ?_
  rintro _ w ⟨rfl, species, pairs⟩
  have found : (v.setIfInBounds i w)[i]? = some w := by simp [hv.size, there]
  dsimp only [andThen]
  refine ensures_ask_bind found species ?_
  refine ensures_ask_bind found pairs ?_
  refine ensures_of_ok_bind (accounts i).orientedPairs_eq (ensures_pure ⟨rfl, fun _ _ => ?_⟩)
  exact hv.setIfInBounds w

/-- Where each system gives its rows when it is visited, all of them together do. -/
theorem settles_rowsOfAll {rows : Nat → Traced (Systems σ) (List (List Int))}
    {g : Nat → List (List Int)} (visit : ∀ i < systems.size,
      Settles (Awaiting systems i) (rows i) (.ok (g i)) (Awaiting systems (i + 1))) :
    Settles (Awaiting systems 0) (Strategy.rowsOfAll rows)
      (.ok ((List.range systems.size).flatMap g)) (Awaiting systems systems.size) := by
  have numbers : Settles (Awaiting systems 0) numbers (.ok (List.range systems.size))
      (Awaiting systems 0) := fun v hv =>
    ensures_value_bind (ensures_pure ⟨by rw [hv.size], fun _ _ => hv⟩)
  have visits := settles_mapM_range' visit systems.size 0 (by omega)
  rw [Nat.zero_add, ← List.range_eq_range'] at visits
  refine settles_ok_bind numbers ?_
  rw [List.flatMap_def]
  exact settles_ok_bind visits (settles_pure _)

/-- Visiting all systems gives the table of their environments. -/
theorem settles_environments_atomSpecies (few : systems.size ≤ maxLabel)
    (told : ∀ i s, systems[i]? = some s → (accounts i).ToldBy cutoff s) :
    Settles (Awaiting systems 0) (Strategy.atomSpecies cutoff includesSelf).environments
      (.ok (Account.atomSpeciesTable accounts systems.size includesSelf))
      (Awaiting systems systems.size) := by
  refine settles_ok_bind (settles_rowsOfAll fun i there =>
    settles_atomSpeciesRows there (told i)) ?_
  have small : ∀ row ∈ (Account.atomSpeciesTable accounts systems.size includesSelf).rows,
      ∀ v ∈ row, v ≤ (maxLabel : Int) := fun row hrow =>
    ((Account.mem_atomSpeciesTable_iff cutoff).1 hrow).small few
  exact Labels.checked_eq _ small ▸ settles_ofExcept _

/-- The environments are there, in increasing order: those that the pairs give to both of their
atoms, and if atoms are their own neighbors, one for each atom. All that is asked of the systems is
that pairs are pairs of their atoms, and that the numbers of systems and atoms fit into labels, as
rows are made of them. -/
theorem environments_atomSpecies_eq_ok (few : systems.size ≤ maxLabel)
    (told : ∀ i s, systems[i]? = some s → (accounts i).ToldBy cutoff s) :
    ∃ all, ((Strategy.atomSpecies cutoff includesSelf).environments.outcome systems).1 = .ok all ∧
      all.names = ["structure", "center", "alpha", "beta"] ∧ all.rows.Pairwise (· < ·) ∧
      ∀ row, row ∈ all.rows ↔
        (∃ i < systems.size, ∃ p ∈ (accounts i).pairs, ∃ center neighbor : Nat,
          ((center, neighbor) = (p.first, p.second) ∨ (center, neighbor) = (p.second, p.first)) ∧
            row = [(i : Int), (center : Int), (accounts i).speciesOf center,
              (accounts i).speciesOf neighbor]) ∨
        includesSelf = true ∧ ∃ i < systems.size, ∃ center < (accounts i).size,
          row = [(i : Int), (center : Int), (accounts i).speciesOf center,
            (accounts i).speciesOf center] := by
  have settled : Settles (Awaiting systems 0)
      (Strategy.atomSpecies cutoff includesSelf).environments _ _ :=
    settles_environments_atomSpecies few told
  have outcome := (settled systems ⟨rfl, fun _ _ => rfl⟩).outcome.1
  refine ⟨_, outcome, rfl, pairwise_sortedRows _, fun row => ?_⟩
  rw [Account.mem_atomSpeciesTable_iff cutoff]
  constructor
  · rintro (_ | _ | _ | @⟨_, _, i, center, neighbor, hi, p, hp, joined⟩ | ⟨hi, hcenter⟩)
    · exact .inl ⟨i, hi, p, hp, center, neighbor, joined, rfl⟩
    · exact .inr ⟨rfl, _, hi, _, hcenter, rfl⟩
  · rintro (⟨i, hi, p, hp, center, neighbor, joined, rfl⟩ | ⟨rfl, i, hi, center, hcenter, rfl⟩)
    · exact .joined hi ⟨p, hp, joined⟩
    · exact .own hi hcenter

/-- A triangle of three atoms, two of them of one species, each a neighbor of the other two. -/
def triangle : RecordedSystem Float where
  size := 3
  species := #[-1, 2, -1]
  positions := #[⟨0, 0, 0⟩, ⟨3, 0, 0⟩, ⟨0, 4, 0⟩]
  cell := .infinite
  pairs := [⟨0, 1, ⟨3, 0, 0⟩⟩, ⟨1, 2, ⟨-3, 4, 0⟩⟩, ⟨0, 2, ⟨0, 4, 0⟩⟩]
  pairsContaining := #[[⟨0, 1, ⟨3, 0, 0⟩⟩, ⟨0, 2, ⟨0, 4, 0⟩⟩],
    [⟨0, 1, ⟨3, 0, 0⟩⟩, ⟨1, 2, ⟨-3, 4, 0⟩⟩], [⟨1, 2, ⟨-3, 4, 0⟩⟩, ⟨0, 2, ⟨0, 4, 0⟩⟩]]
  refused := []
  cutoffs := #[]

theorem sound_triangle : triangle.Sound where
  size_le := (by decide : 3 ≤ maxLabel)
  size_species := rfl
  size_positions := rfl
  size_pairsContaining := rfl
  species_le := by simp [triangle, maxLabel]
  pairs_lt := by simp [triangle]
  pairsContaining_lt := by simp [triangle]

/-- What the triangle answers. -/
def triangleAccounts : Nat → Account Float := fun _ => triangle.account sound_triangle

/-- The neighbors of the second atom make one environment. Each of the other atoms has the
environment of being its own neighbor already. -/
theorem environments_triangle :
    let found (includesSelf : Bool) :=
      ((Strategy.atomSpecies (6 : Float) includesSelf).environments.outcome #[triangle]).1
    (∃ all, found false = .ok all ∧ all.rows
      = [[0, 0, -1, -1], [0, 0, -1, 2], [0, 1, 2, -1], [0, 2, -1, -1], [0, 2, -1, 2]]) ∧
    ∃ all, found true = .ok all ∧ all.rows = [[0, 0, -1, -1], [0, 0, -1, 2], [0, 1, 2, -1],
      [0, 1, 2, 2], [0, 2, -1, -1], [0, 2, -1, 2]] := by
  suffices each : ∀ includesSelf, ∃ all,
      ((Strategy.atomSpecies (6 : Float) includesSelf).environments.outcome #[triangle]).1 = .ok all ∧
      all.rows = if includesSelf then
        [[0, 0, -1, -1], [0, 0, -1, 2], [0, 1, 2, -1], [0, 1, 2, 2], [0, 2, -1, -1], [0, 2, -1, 2]]
      else [[0, 0, -1, -1], [0, 0, -1, 2], [0, 1, 2, -1], [0, 2, -1, -1], [0, 2, -1, 2]] from
    ⟨each false, each true⟩
  intro includesSelf
  have told : ∀ i s, (#[triangle] : Systems _)[i]? = some s →
      (triangleAccounts i).ToldBy (6 : Float) s := by
    intro i s hs
    cases Array.mem_singleton.1 (Array.mem_of_getElem? hs)
    exact fun _ => ⟨rfl, rfl, rfl⟩
  have few : (#[triangle] : Systems _).size ≤ maxLabel := (by decide : 1 ≤ maxLabel)
  obtain ⟨all, found, -, sorted, rows⟩ := environments_atomSpecies_eq_ok few told
  refine ⟨all, found, sorted.eq_of_mem_iff ?_ fun row => (rows row).trans ?_⟩
  · cases includesSelf <;> decide
  · have single (q : Nat → Prop) : (∃ i < (#[triangle] : Systems _).size, q i) ↔ q 0 := by
      constructor
      · rintro ⟨i, hi, h⟩
        cases Nat.lt_one_iff.1 hi
        exact h
      · exact fun h => ⟨0, Nat.zero_lt_one, h⟩
    have centers (q : Nat → Prop) :
        (∃ center < (triangleAccounts 0).size, q center) ↔ q 0 ∨ q 1 ∨ q 2 := by
      constructor
      · rintro ⟨center, small, h⟩
        have which : center = 0 ∨ center = 1 ∨ center = 2 := by
          change center < 3 at small
          omega
        rcases which with rfl | rfl | rfl
        exacts [.inl h, .inr (.inl h), .inr (.inr h)]
      · rintro (h | h | h)
        exacts [⟨0, by decide, h⟩, ⟨1, by decide, h⟩, ⟨2, by decide, h⟩]
    rw [single, single, centers]
    cases includesSelf <;>
      simp [triangleAccounts, RecordedSystem.account, triangle, Account.speciesOf, or_and_right,
        exists_or, and_assoc] <;>
      tauto

end Atomistic
