import Atomistic.Proofs.AccountedEnvironments
import Atomistic.Scalar.Binary64

/-!
# Gradients of systems that keep their contract

An environment has a gradient row for each atom that it depends on, in each direction of space: all
atoms of a structure, those of its species, the atoms that are paired with a center, or the ones
among these that have the species of the environment. Each strategy looks for these atoms in its own
way: structures are taken one after the other; centers are looked up among the pairs of their system,
seen from both atoms, and what is found is sorted. In the end, the accounts of the systems say which
rows there are.
-/

namespace Atomistic

open Traced Systems

variable {σ α β : Type}

/-! ### Atoms that environments depend on -/

namespace Strategy

/-- An environment changes with the position of an atom. -/
inductive DependsOn (accounts : Nat → Account α) : Strategy α → List Int → Nat → Prop where
  | whole {i atom : Nat} (hatom : atom < (accounts i).size) :
      DependsOn accounts structures [(i : Int)] atom
  | species {i atom : Nat} (hatom : atom < (accounts i).size) :
      DependsOn accounts structureSpecies [(i : Int), (accounts i).speciesOf atom] atom
  | neighbor {cutoff : α} {i center neighbor : Nat} (joins : (accounts i).Joins center neighbor) :
      DependsOn accounts (atoms cutoff) [(i : Int), (center : Int)] neighbor
  | speciesNeighbor {cutoff : α} {includesSelf : Bool} {i center neighbor : Nat} {alpha : Int}
      (joins : (accounts i).Joins center neighbor) :
      DependsOn accounts (atomSpecies cutoff includesSelf)
        [(i : Int), (center : Int), alpha, (accounts i).speciesOf neighbor] neighbor

variable {accounts : Nat → Account α} {s : Strategy α} {environments : List (List Int)}
  {rows : List (List Int)}

theorem DependsOn.le {e : List Int} {atom : Nat} (h : s.DependsOn accounts e atom) :
    (atom : Int) ≤ (maxLabel : Int) := by
  have size_le (i : Nat) := (accounts i).size_le
  cases h with
  | @whole i _ hatom | @species i _ hatom =>
    have := size_le i
    omega
  | @neighbor _ i _ _ joins | @speciesNeighbor _ _ i _ _ _ joins =>
    have := size_le i
    have := joins.lt.2
    omega

/-- The rows of some environments with the atoms that these depend on, each of them once. -/
structure Moving (s : Strategy α) (accounts : Nat → Account α)
    (environments rows : List (List Int)) : Prop where
  nodup : rows.Nodup
  mem : ∀ row, row ∈ rows ↔ ∃ e ∈ environments, ∃ atom : Nat,
    s.DependsOn accounts e atom ∧ row = e ++ [(atom : Int)]

/-- The rows of the environments in the system of number `i`. -/
def MovingIn (s : Strategy α) (accounts : Nat → Account α) (environments : List (List Int))
    (i : Nat) (rows : List (List Int)) : Prop :=
  ∀ row, row ∈ rows ↔ ∃ e ∈ environments, e[0]? = some (i : Int) ∧ ∃ atom : Nat,
    s.DependsOn accounts e atom ∧ row = e ++ [(atom : Int)]

/-- Rows that are found for one environment after the other. -/
theorem moving_flatten {n : Nat} {found : List (List (List Int))}
    (h : List.Forall₂ (fun e rows => s.Moving accounts [e] rows) environments found)
    (width : ∀ e ∈ environments, e.length = n) (nodup : environments.Nodup) :
    s.Moving accounts environments found.flatten := by
  induction h with
  | nil => exact ⟨.nil, by simp⟩
  | @cons e rows environments found first _ ih =>
    obtain ⟨new, nodup⟩ := List.nodup_cons.1 nodup
    rw [List.forall_mem_cons] at width
    have rest := ih width.2 nodup
    refine ⟨List.nodup_append'.2 ⟨first.nodup, rest.nodup, ?_⟩, fun row => ?_⟩
    · intro row hrow hrow'
      obtain ⟨_, he, atom, -, rfl⟩ := (first.mem row).1 hrow
      cases List.mem_singleton.1 he
      obtain ⟨e', he', atom', -, same⟩ := (rest.mem _).1 hrow'
      obtain ⟨rfl, -⟩ := List.append_inj same (width.1.trans (width.2 e' he').symm)
      exact new he'
    · rw [List.flatten_cons, List.mem_append, first.mem, rest.mem]
      simp

end Strategy

/-! ### Tables of gradients -/

/-- Lists whose elements are known are put together. -/
theorem mem_flatten_of_forall₂ {ι : Type} {r : ι → β → Prop} {items : List ι}
    {lists : List (List β)} (h : List.Forall₂ (fun i found => ∀ b, b ∈ found ↔ r i b) items lists)
    {b : β} : b ∈ lists.flatten ↔ ∃ i ∈ items, r i b := by
  induction h with
  | nil => simp
  | cons first _ ih => simp [first, ih]

/-- Distinct rows of one length have distinct rows in all directions. -/
theorem exists_spatialTable {names : List String} {rows : List (List Int)} (valid : NamesValid names)
    (length : ∀ row ∈ rows, row.length + 1 = names.length) (nodup : rows.Nodup) :
    ∃ g, Labels.ofRows names (rows.flatMap spatialRows) = .ok g := by
  refine Labels.exists_ofRows valid (fun row hrow => ?_) ?_
  · obtain ⟨front, hfront, hrow⟩ := List.mem_flatMap.1 hrow
    obtain ⟨k, -, rfl⟩ := List.mem_map.1 hrow
    rw [List.length_append, ← length front hfront]
    rfl
  · refine nodup_flatMap_map nodup (fun _ _ => by decide) fun row hrow k _ row' hrow' k' _ same => ?_
    have widths : row.length = row'.length := by
      have := length row hrow
      have := length row' hrow'
      omega
    obtain ⟨fronts, ends⟩ := List.append_inj same widths
    exact ⟨fronts, List.singleton_inj.1 ends⟩

namespace Strategy

variable {cutoff : α} {accounts : Nat → Account α} {count : Nat} {s : Strategy α}
  {environments : Labels}

/-- The table of gradients of some environments has a row in each direction for each atom that one
of them depends on. -/
def GradientsOf (s : Strategy α) (accounts : Nat → Account α) (environments : Labels)
    (found : Option Labels) : Prop :=
  ∃ g, found = some g ∧ g.names = s.gradientNames ∧ ∀ row, row ∈ g.rows ↔
    ∃ e ∈ environments.rows, ∃ atom : Nat, s.DependsOn accounts e atom ∧
      ∃ k ∈ ([0, 1, 2] : List Int), row = e ++ [(atom : Int), k]

theorem namesValid_gradientNames (hs : s.OfSystems cutoff) : NamesValid s.gradientNames := by
  cases hs with
  | structures =>
    exact (⟨by decide, by decide⟩ : NamesValid ["structure", "atom", "spatial"])
  | structureSpecies =>
    exact (⟨by decide, by decide⟩ : NamesValid ["structure", "alpha", "atom", "spatial"])
  | atoms => exact namesValid_neighbors
  | atomSpecies =>
    exact (⟨by decide, by decide⟩ :
      NamesValid ["structure", "center", "alpha", "beta", "neighbor", "spatial"])

theorem length_gradientNames (hs : s.OfSystems cutoff) :
    s.gradientNames.length = s.names.length + 2 := by
  cases hs <;> rfl

/-- The rows that are found for the atoms become a table. -/
theorem relies_gradientTable {κ τ : Type} {ends : κ → Except Error Unit → Prop} {p : τ → Prop}
    (hs : s.OfSystems cutoff) (names : environments.names = s.names)
    (found : ∀ e ∈ environments.rows, s.Finds accounts count e) (count_le : count ≤ maxLabel)
    {rows : List (List Int)} (moving : s.Moving accounts environments.rows rows) :
    Relies ends ∅ p (Traced.ofExcept do
      let g ← Labels.ofRows s.gradientNames ((← rows.mapM checkRow).flatMap spatialRows)
      pure (some g)) (s.GradientsOf accounts environments) p := by
  have small : ∀ row ∈ rows, ∀ v ∈ row, v ≤ (maxLabel : Int) := by
    intro row hrow v hv
    obtain ⟨e, he, atom, depends, rfl⟩ := (moving.mem row).1 hrow
    rcases List.mem_append.1 hv with hv | hv
    · exact (found e he).small count_le v hv
    · cases List.mem_singleton.1 hv
      exact depends.le
  have length : ∀ row ∈ rows, row.length + 1 = s.gradientNames.length := by
    intro row hrow
    obtain ⟨e, he, atom, -, rfl⟩ := (moving.mem row).1 hrow
    rw [length_gradientNames hs, ← names, List.length_append, environments.width e he]
    rfl
  obtain ⟨g, hg⟩ := exists_spatialTable (namesValid_gradientNames hs) length moving.nodup
  obtain ⟨gradient_names, gradient_rows⟩ := Labels.ofRows_eq_ok.1 hg
  refine relies_ofExcept (except_bind_eq_ok.2 ⟨rows, mapM_checkRow_eq small, except_bind_eq_ok.2
    ⟨g, hg, rfl⟩⟩) ⟨g, rfl, gradient_names, fun row => ?_⟩
  rw [gradient_rows]
  simp only [List.mem_flatMap, moving.mem, spatialRows, List.mem_map]
  constructor
  · rintro ⟨_, ⟨e, he, atom, depends, rfl⟩, k, hk, rfl⟩
    exact ⟨e, he, atom, depends, k, hk, by simp⟩
  · rintro ⟨e, he, atom, depends, k, hk, rfl⟩
    exact ⟨_, ⟨e, he, atom, depends, rfl⟩, k, hk, by simp⟩

end Strategy

/-! ### Structures -/

theorem append_atom_injective (row : List Int) :
    Function.Injective fun atom : Nat => row ++ [(atom : Int)] := fun _ _ same =>
  Int.natCast_inj.1 (List.singleton_inj.1 (List.append_cancel_left same))

section Gradients

variable [AtomicSystem σ α] {cutoff : α} {start : Systems σ} {accounts : Nat → Account α}
  {counts : Nat → Nat} {n : Nat} (kept : Keep cutoff start accounts) {environments : Labels}

include kept

theorem relies_structureGradients {i : Nat} (there : i < start.size) (now : counts i = n) :
    Relies (Ends cutoff start) {⟨i, n, .size⟩} (Reached cutoff start counts)
      (Strategy.structureGradients [(i : Int)])
      (Strategy.structures.Moving accounts [[(i : Int)]]) (Reached cutoff start counts) := by
  refine relies_of_ok_bind (positionAt_eq_ok.2 rfl) (relies_map (relies_size kept there now) ?_)
  rintro _ rfl
  refine ⟨List.nodup_range.map (append_atom_injective _), fun row => ?_⟩
  · simp only [List.mem_map, List.mem_range, List.mem_singleton, exists_eq_left]
    constructor
    · rintro ⟨atom, hatom, rfl⟩
      exact ⟨atom, .whole hatom, rfl⟩
    · rintro ⟨atom, ⟨hatom⟩, rfl⟩
      exact ⟨atom, hatom, rfl⟩

theorem relies_structureSpeciesGradients {i : Nat} {alpha : Int} (there : i < start.size)
    (now : counts i = n) :
    Relies (Ends cutoff start) {⟨i, n, .species⟩} (Reached cutoff start counts)
      (Strategy.structureSpeciesGradients [(i : Int), alpha])
      (Strategy.structureSpecies.Moving accounts [[(i : Int), alpha]])
      (Reached cutoff start counts) := by
  refine relies_of_ok_bind (positionAt_eq_ok.2 rfl)
    (relies_bind_free (relies_species kept there now) ?_)
  rintro _ rfl
  refine relies_of_ok_bind (labelAt_eq_ok.2 rfl) (relies_pure ⟨?_, fun row => ?_⟩)
  · have all := (List.nodup_range' (s := 0) (n := (accounts i).species.toList.length)).map
      (append_atom_injective [(i : Int), alpha])
    rw [← List.zipIdx_map_snd, List.map_map] at all
    exact all.sublist (List.filter_sublist.map _)
  · simp only [List.mem_map, List.mem_filter, List.mem_singleton, exists_eq_left, Prod.exists,
      Account.mem_zipIdx_species, beq_iff_eq]
    constructor
    · rintro ⟨_, atom, ⟨⟨hatom, rfl⟩, rfl⟩, rfl⟩
      exact ⟨atom, .species hatom, rfl⟩
    · rintro ⟨atom, _ | ⟨hatom⟩, rfl⟩
      exact ⟨_, atom, ⟨⟨hatom, rfl⟩, rfl⟩, rfl⟩

/-- Structures are taken one after the other. -/
theorem relies_eachStructure {s : Strategy α} (hs : s.OfSystems cutoff)
    (names : environments.names = s.names)
    (found : ∀ e ∈ environments.rows, s.Finds accounts start.size e)
    {f : List Int → Traced (Systems σ) (List (List Int))} {of : List Int → Set SystemCall}
    (each : ∀ e ∈ environments.rows, Relies (Ends cutoff start) (of e) (Reached cutoff start counts)
      (f e) (s.Moving accounts [e]) (Reached cutoff start counts)) :
    Relies (Ends cutoff start) (⋃ e ∈ environments.rows, of e) (Reached cutoff start counts)
      (do
        let rows ← environments.rows.mapM f
        Traced.ofExcept do
          let g ← Labels.ofRows s.gradientNames ((← rows.flatten.mapM checkRow).flatMap spatialRows)
          pure (some g))
      (s.GradientsOf accounts environments) (Reached cutoff start counts) := by
  refine relies_bind_free (relies_mapM each) fun rows moving => ?_
  exact Strategy.relies_gradientTable hs names found kept.size_le
    (Strategy.moving_flatten moving environments.width environments.nodup)

/-- Gradients of structures take one call for each of them. -/
theorem relies_gradientsFor_structures (names : environments.names = ["structure"])
    (found : ∀ e ∈ environments.rows, Strategy.structures.Finds accounts start.size e)
    (now : ∀ i < start.size, counts i = n) :
    Relies (Ends cutoff start) (⋃ e ∈ environments.rows, {⟨(e.headD 0).toNat, n, .size⟩})
      (Reached cutoff start counts) ((Strategy.structures : Strategy α).gradientsFor environments)
      (Strategy.structures.GradientsOf accounts environments) (Reached cutoff start counts) := by
  refine relies_eachStructure kept .structures names found fun e he => ?_
  obtain ⟨hi⟩ := found e he
  exact relies_structureGradients kept hi (now _ hi)

theorem relies_gradientsFor_structureSpecies (names : environments.names = ["structure", "alpha"])
    (found : ∀ e ∈ environments.rows, Strategy.structureSpecies.Finds accounts start.size e)
    (now : ∀ i < start.size, counts i = n) :
    Relies (Ends cutoff start) (⋃ e ∈ environments.rows, {⟨(e.headD 0).toNat, n, .species⟩})
      (Reached cutoff start counts)
      ((Strategy.structureSpecies : Strategy α).gradientsFor environments)
      (Strategy.structureSpecies.GradientsOf accounts environments)
      (Reached cutoff start counts) := by
  refine relies_eachStructure kept .structureSpecies names found fun e he => ?_
  obtain _ | ⟨hi, hatom⟩ := found e he
  exact relies_structureSpeciesGradients kept hi (now _ hi)

/-! ### Centers -/

omit kept in
/-- Rows that are found system by system are put in order. -/
theorem relies_eachSystem {s : Strategy α} (within : environments.Within accounts start.size)
    (now : ∀ i ∈ environments.systems, counts i = n)
    {f : Int → Traced (Systems σ) (List (List Int))} {questions : Set Question}
    (each : ∀ i < start.size, ∀ counts, counts i = n → Relies (Ends cutoff start)
      (visit i n questions) (Reached cutoff start counts) (f i)
      (s.MovingIn accounts environments.rows i) (Reached cutoff start (raise counts [i]))) :
    Relies (Ends cutoff start) (⋃ i ∈ environments.systems, visit i n questions)
      (Reached cutoff start counts)
      (do
        let systems ← Traced.ofExcept (requestedSystems environments)
        return sortedRows (← systems.mapM f).flatten)
      (s.Moving accounts environments.rows)
      (Reached cutoff start (raise counts environments.systems)) := by
  refine relies_of_ok_bind within.requestedSystems_eq ?_
  rw [List.mapM_map]
  refine relies_map (relies_mapM_visits within.nodup_systems now fun i hi =>
    each i (within.lt_of_mem_systems hi)) fun rows moving => ⟨?_, fun row => ?_⟩
  · exact (pairwise_sortedRows _).imp ne_of_lt
  · rw [mem_sortedRows, mem_flatten_of_forall₂ moving]
    constructor
    · rintro ⟨i, -, e, he, -, atom, moved⟩
      exact ⟨e, he, atom, moved⟩
    · rintro ⟨e, he, atom, moved⟩
      obtain ⟨i, -, -, -, first, -⟩ := within e he
      exact ⟨i, within.mem_systems.2 ⟨e, he, first⟩, e, he, first, atom, moved⟩

/-- The atoms of one system that some centers depend on. -/
theorem relies_atomGradients (names : environments.names = ["structure", "center"])
    (found : ∀ e ∈ environments.rows, (Strategy.atoms cutoff).Finds accounts start.size e)
    {i : Nat} (there : i < start.size) (now : counts i = n) :
    Relies (Ends cutoff start) (visit i n {.pairs}) (Reached cutoff start counts)
      (Strategy.atomGradients cutoff environments i)
      ((Strategy.atoms cutoff).MovingIn accounts environments.rows i)
      (Reached cutoff start (raise counts [i])) := by
  obtain ⟨centers, hcenters⟩ : ∃ centers, (environments.rows.filter fun row =>
      row.head? == some (i : Int)).mapM (positionAt · 1) = .ok centers := by
    refine exists_mapM_eq_ok.2 fun row hrow => ?_
    obtain _ | _ | ⟨-, -⟩ := found row (List.mem_filter.1 hrow).1
    exact ⟨_, positionAt_eq_ok.2 rfl⟩
  have known (center : Nat) : centers.contains center = true
      ↔ [(i : Int), (center : Int)] ∈ environments.rows := by
    rw [List.contains_iff_mem, Strategy.mem_centers (congrArg List.length names) hcenters]
  refine relies_of_ok_bind (positionOfLabel_eq_ok.2 rfl)
    (relies_visit there now fun counts now => relies_of_ok_bind hcenters ?_)
  rw [Set.image_singleton]
  refine relies_map (relies_pairs kept there now) ?_
  rintro _ rfl row
  simp only [List.mem_map, List.mem_filter, List.mem_flatMap, List.mem_cons, List.not_mem_nil,
    or_false, known, Prod.exists]
  constructor
  · rintro ⟨center, neighbor, ⟨joins, wanted⟩, rfl⟩
    exact ⟨_, wanted, rfl, neighbor, .neighbor joins, rfl⟩
  · rintro ⟨_, wanted, first, neighbor, _ | _ | joins, rfl⟩
    cases Int.natCast_inj.1 (Option.some.inj first)
    exact ⟨_, neighbor, ⟨joins, wanted⟩, rfl⟩

/-- Gradients of centers take a visit to each system that they are in. -/
theorem relies_gradientsFor_atoms (names : environments.names = ["structure", "center"])
    (found : ∀ e ∈ environments.rows, (Strategy.atoms cutoff).Finds accounts start.size e)
    (now : ∀ i ∈ environments.systems, counts i = n) :
    Relies (Ends cutoff start) (⋃ i ∈ environments.systems, visit i n {.pairs})
      (Reached cutoff start counts) ((Strategy.atoms cutoff).gradientsFor environments)
      ((Strategy.atoms cutoff).GradientsOf accounts environments)
      (Reached cutoff start (raise counts environments.systems)) := by
  have within : environments.Within accounts start.size :=
    Labels.within_of_subset_atomTable fun row hrow =>
      (Account.mem_atomTable_iff cutoff).2 (found row hrow)
  refine relies_bind_free (relies_eachSystem within now fun i there counts now =>
    relies_atomGradients kept names found there now) fun rows moving => ?_
  exact Strategy.relies_gradientTable .atoms names found kept.size_le moving

/-- The atoms of one system that some centers with species depend on. -/
theorem relies_atomSpeciesGradients {includesSelf : Bool}
    (names : environments.names = ["structure", "center", "alpha", "beta"])
    (found : ∀ e ∈ environments.rows,
      (Strategy.atomSpecies cutoff includesSelf).Finds accounts start.size e)
    {i : Nat} (there : i < start.size) (now : counts i = n) :
    Relies (Ends cutoff start) (visit i n {.species, .pairs}) (Reached cutoff start counts)
      (Strategy.atomSpeciesGradients cutoff environments i)
      ((Strategy.atomSpecies cutoff includesSelf).MovingIn accounts environments.rows i)
      (Reached cutoff start (raise counts [i])) := by
  obtain ⟨centers, hcenters⟩ : ∃ centers, (environments.rows.filter fun row =>
      row.head? == some (i : Int)).mapM Strategy.speciesCenterOf = .ok centers := by
    refine exists_mapM_eq_ok.2 fun row hrow => ?_
    cases found row (List.mem_filter.1 hrow).1 with
    | joined => exact ⟨_, Strategy.speciesCenterOf_eq_ok.2 ⟨rfl, rfl, rfl⟩⟩
    | own => exact ⟨_, Strategy.speciesCenterOf_eq_ok.2 ⟨rfl, rfl, rfl⟩⟩
  -- the species of a center is known from its environment
  have alpha_eq (center : Nat) (alpha beta : Int)
      (wanted : [(i : Int), (center : Int), alpha, beta] ∈ environments.rows) :
      alpha = (accounts i).speciesOf center := by
    have environment := found _ wanted
    generalize hrow : [(i : Int), (center : Int), alpha, beta] = row at environment
    cases environment <;> simp only [List.cons.injEq, Int.natCast_inj] at hrow <;>
      obtain ⟨rfl, rfl, rfl, -⟩ := hrow <;> rfl
  have known (center : Nat) (alpha beta : Int) : centers.contains (center, alpha, beta) = true
      ↔ [(i : Int), (center : Int), alpha, beta] ∈ environments.rows := by
    rw [List.contains_iff_mem,
      Strategy.mem_centers_withSpecies (congrArg List.length names) hcenters]
  refine relies_of_ok_bind (positionOfLabel_eq_ok.2 rfl)
    (relies_visit there now fun counts now => ?_)
  rw [Set.image_pair]
  refine relies_bind (relies_species kept there now) ?_
  rintro _ rfl
  refine relies_of_ok_bind hcenters (relies_bind_free (relies_pairs kept there now) ?_)
  rintro _ rfl
  refine relies_of_ok_bind (accounts i).orientedPairs_eq (relies_pure fun row => ?_)
  simp only [List.mem_map, List.mem_filter, Prod.exists, Account.mem_orientedPairs, known]
  constructor
  · rintro ⟨center, alpha, beta, neighbor, ⟨⟨joins, rfl, rfl⟩, wanted⟩, rfl⟩
    exact ⟨_, wanted, rfl, neighbor, .speciesNeighbor joins, rfl⟩
  · rintro ⟨_, wanted, first, neighbor, _ | _ | _ | joins, rfl⟩
    cases Int.natCast_inj.1 (Option.some.inj first)
    exact ⟨_, _, _, neighbor, ⟨⟨joins, alpha_eq _ _ _ wanted, rfl⟩, wanted⟩, rfl⟩

/-- Gradients of centers with species take a visit too. -/
theorem relies_gradientsFor_atomSpecies {includesSelf : Bool}
    (names : environments.names = ["structure", "center", "alpha", "beta"])
    (found : ∀ e ∈ environments.rows,
      (Strategy.atomSpecies cutoff includesSelf).Finds accounts start.size e)
    (now : ∀ i ∈ environments.systems, counts i = n) :
    Relies (Ends cutoff start) (⋃ i ∈ environments.systems, visit i n {.species, .pairs})
      (Reached cutoff start counts)
      ((Strategy.atomSpecies cutoff includesSelf).gradientsFor environments)
      ((Strategy.atomSpecies cutoff includesSelf).GradientsOf accounts environments)
      (Reached cutoff start (raise counts environments.systems)) := by
  have within : environments.Within accounts start.size :=
    Labels.within_of_subset_atomSpeciesTable fun row hrow =>
      (Account.mem_atomSpeciesTable_iff cutoff).2 (found row hrow)
  refine relies_bind_free (relies_eachSystem within now fun i there counts now =>
    relies_atomSpeciesGradients kept names found there now) fun rows moving => ?_
  exact Strategy.relies_gradientTable (.atomSpecies includesSelf) names found kept.size_le moving

/-- Where all calls are answered, a strategy finds the gradient rows of its environments. -/
theorem exists_gradientsFor (answering : Answering cutoff start accounts) {s : Strategy α}
    (hs : s.OfSystems cutoff) (names : environments.names = s.names)
    (found : ∀ e ∈ environments.rows, s.Finds accounts start.size e) :
    ∃ answer, ((s.gradientsFor environments).outcome start).1 = .ok answer ∧
      s.GradientsOf accounts environments answer := by
  have answer {calls : Set SystemCall} {q : Systems σ → Prop}
      (h : Relies (Ends cutoff start) calls (Reached cutoff start fun _ => 0)
        (s.gradientsFor environments) (s.GradientsOf accounts environments) q)
      (plain : ∀ i round atom, ⟨i, round, .pairsContaining atom⟩ ∉ calls) :
      ∃ answer, ((s.gradientsFor environments).outcome start).1 = .ok answer ∧
        s.GradientsOf accounts environments answer := by
    obtain ⟨answer, ok, gradients, -⟩ :=
      (h.ensures_ok reached_start (answering.of_plain plain)).outcome
    exact ⟨answer, ok, gradients⟩
  cases hs with
  | structures =>
    exact answer (relies_gradientsFor_structures kept names found fun _ _ => rfl) (by simp)
  | structureSpecies =>
    exact answer (relies_gradientsFor_structureSpecies kept names found fun _ _ => rfl) (by simp)
  | atoms =>
    exact answer (relies_gradientsFor_atoms kept names found fun _ _ => rfl) (by simp [visit])
  | atomSpecies includesSelf =>
    exact answer (relies_gradientsFor_atomSpecies kept names found fun _ _ => rfl) (by simp [visit])

end Gradients

/-! ### Gradients of selected environments -/

theorem Strategy.exists_gradientNames {s : Strategy α} {cutoff : α} (hs : s.OfSystems cutoff) :
    ∃ atomName ∈ ["atom", "neighbor"], s.gradientNames = s.names ++ [atomName, "spatial"] := by
  cases hs with
  | structures | structureSpecies => exact ⟨"atom", by simp, rfl⟩
  | atoms | atomSpecies => exact ⟨"neighbor", by simp, rfl⟩

/-- Any environments that a strategy finds have gradient rows for exactly the atoms that they depend
on. These are the rows among those of all environments that begin with one of them. -/
theorem exists_gradients [AtomicSystem σ α] {cutoff : α} {start : Systems σ}
    {accounts : Nat → Account α} (kept : Keep cutoff start accounts)
    (answering : Answering cutoff start accounts) (s : Strategy α) (hs : s.OfSystems cutoff) :
    ∃ all, (s.environments.outcome start).1 = .ok all ∧
      ∀ environments : Labels, environments.names = s.names → environments.rows ⊆ all.rows →
      ∀ counts v, Reached cutoff start counts v → ∃ g whole,
        ((s.gradientsFor environments).outcome v).1 = .ok (some g) ∧
        ((s.gradientsFor all).outcome v).1 = .ok (some whole) ∧
        (∃ atomName ∈ ["atom", "neighbor"],
          g.names = environments.names ++ [atomName, "spatial"]) ∧
        g.rows.Nodup ∧
        (∀ row, row ∈ g.rows ↔ ∃ e ∈ environments.rows, ∃ atom : Nat,
          s.DependsOn accounts e atom ∧
            ∃ k ∈ ([0, 1, 2] : List Int), row = e ++ [(atom : Int), k]) ∧
        ∀ row, row ∈ g.rows ↔
          row ∈ whole.rows ∧ row.take environments.size ∈ environments.rows := by
  obtain ⟨all, hall, all_names, all_rows⟩ := exists_environments kept answering hs
  refine ⟨all, hall, fun environments names sub counts v reached => ?_⟩
  have kept := kept.after reached
  have answering := answering.after reached
  have found : ∀ e ∈ all.rows, s.Finds accounts v.size e := fun e he =>
    reached.size ▸ (all_rows e).1 he
  obtain ⟨_, hg, g, rfl, g_names, g_rows⟩ :=
    exists_gradientsFor kept answering hs names fun e he => found e (sub he)
  obtain ⟨_, hwhole, whole, rfl, -, whole_rows⟩ :=
    exists_gradientsFor kept answering hs all_names found
  obtain ⟨atomName, among, gradient_names⟩ := Strategy.exists_gradientNames hs
  refine ⟨g, whole, hg, hwhole, ⟨atomName, among, ?_⟩, g.nodup, g_rows, fun row => ?_⟩
  · rw [g_names, gradient_names, names]
  · rw [g_rows, whole_rows]
    have start {e : List Int} (he : e ∈ all.rows) (ends : List Int) :
        (e ++ ends).take environments.size = e :=
      List.take_left' ((all.width e he).trans (congrArg List.length (all_names.trans names.symm)))
    constructor
    · rintro ⟨e, he, atom, depends, k, hk, rfl⟩
      refine ⟨⟨e, sub he, atom, depends, k, hk, rfl⟩, ?_⟩
      rwa [start (sub he)]
    · rintro ⟨⟨e, he, atom, depends, k, hk, rfl⟩, wanted⟩
      rw [start he] at wanted
      exact ⟨e, wanted, atom, depends, k, hk, rfl⟩

/-- An oxygen atom between two hydrogen atoms. -/
def bent : RecordedSystem Float where
  size := 3
  species := #[1, 8, 1]
  positions := #[⟨1, 0, 0⟩, ⟨0, 0, 0⟩, ⟨0, 1, 0⟩]
  cell := .infinite
  pairs := [⟨0, 1, ⟨-1, 0, 0⟩⟩, ⟨1, 2, ⟨0, 1, 0⟩⟩]
  pairsContaining :=
    #[[⟨0, 1, ⟨-1, 0, 0⟩⟩], [⟨0, 1, ⟨-1, 0, 0⟩⟩, ⟨1, 2, ⟨0, 1, 0⟩⟩], [⟨1, 2, ⟨0, 1, 0⟩⟩]]
  refused := []
  cutoffs := #[]

theorem sound_bent : bent.Sound where
  size_le := (by decide : 3 ≤ maxLabel)
  size_species := rfl
  size_positions := rfl
  size_pairsContaining := rfl
  species_le := by simp [bent, maxLabel]
  pairs_lt := by simp [bent]
  pairsContaining_lt := by simp [bent]

/-- What the three atoms answer. -/
def bentAccounts : Nat → Account Float := fun _ => bent.account sound_bent

theorem joins_bent : (bentAccounts 0).Joins 1 0 ∧ (bentAccounts 0).Joins 1 2 ∧
    (bentAccounts 0).Joins 2 1 :=
  ⟨⟨⟨0, 1, ⟨-1, 0, 0⟩⟩, List.mem_cons_self, .inr rfl⟩,
    ⟨⟨1, 2, ⟨0, 1, 0⟩⟩, List.mem_of_mem_tail List.mem_cons_self, .inl rfl⟩,
    ⟨⟨1, 2, ⟨0, 1, 0⟩⟩, List.mem_of_mem_tail List.mem_cons_self, .inr rfl⟩⟩

/-- The last hydrogen atom and the oxygen atom, with their neighbors. -/
def bentCenters : Labels where
  names := ["structure", "center", "alpha", "beta"]
  rows := [[0, 2, 1, 8], [0, 1, 8, 1]]
  names_valid := (Account.atomSpeciesTable bentAccounts 1 false).names_valid
  width := by decide
  nodup := by decide

/-- The oxygen atom depends on both hydrogen atoms; what the first hydrogen atom depends on is left
out, as its environment is not asked for. -/
theorem exists_gradients_bent : ∃ g,
    (((Strategy.atomSpecies 1 false).gradientsFor bentCenters).outcome #[bent]).1 = .ok (some g) ∧
      [0, 1, 8, 1, 0, 2] ∈ g.rows ∧ [0, 1, 8, 1, 2, 0] ∈ g.rows ∧
      [0, 0, 1, 8, 1, 0] ∉ g.rows := by
  have kept : Keep (1 : Float) #[bent] bentAccounts := keep_recorded sound_bent 1
  have answering : Answering (1 : Float) #[bent] bentAccounts := answering_recorded sound_bent rfl 1
  obtain ⟨first, second, third⟩ := joins_bent
  obtain ⟨all, hall, gradients⟩ := exists_gradients kept answering _ (.atomSpecies false)
  obtain ⟨found, hfound, -, rows⟩ := exists_environments kept answering (.atomSpecies false)
  cases hall.symm.trans hfound
  have sub : bentCenters.rows ⊆ all.rows := by
    intro e he
    rw [rows]
    simp only [bentCenters, List.mem_cons, List.not_mem_nil, or_false] at he
    rcases he with rfl | rfl
    · exact Strategy.Finds.joined Nat.zero_lt_one third
    · exact Strategy.Finds.joined Nat.zero_lt_one first
  obtain ⟨g, whole, hg, -, -, -, mem, restricted⟩ := gradients bentCenters rfl sub _ _ reached_start
  have oxygen : [0, 1, 8, 1] ∈ bentCenters.rows := by decide
  refine ⟨g, hg, ?_, ?_, fun stray => ?_⟩
  · exact (mem _).2 ⟨_, oxygen, 0, .speciesNeighbor first, 2, by decide, rfl⟩
  · exact (mem _).2 ⟨_, oxygen, 2, .speciesNeighbor second, 0, by decide, rfl⟩
  · have gone := ((restricted _).1 stray).2
    revert gone
    decide

end Atomistic
