import Atomistic.Proofs.PartialKernels
import Atomistic.Proofs.ReadableResults
import Atomistic.Proofs.SettledCalculation

/-!
# Partial calculations

A calculation can be restricted to some environments and features. It gives the part of the whole
descriptor that has these rows and columns, in the order in which they were asked for, and the
gradient rows that belong to these environments, in the order that they have in the whole
descriptor. It does not matter whether environments and features are given by their positions or by
their labels.
-/

namespace Atomistic

open Traced Systems

variable {α : Type}

/-! ### Parts of descriptors -/

/-- The positions of the rows that begin with one of the environments, in increasing order. -/
def Labels.positionsUnder (environments t : Labels) : List Nat :=
  t.rows.findIdxs fun row => environments.rows.contains (row.take environments.size)

/-- The second gradients have the rows of the first ones that begin with one of the environments, in
the same order, and the given columns. -/
structure Gradients.Picks (environments : Labels) (columns : List Nat) (g part : Gradients α) :
    Prop where
  labels : g.labels.Picks (environments.positionsUnder g.labels) part.labels
  values : g.values.Picks (environments.positionsUnder g.labels) columns part.values

/-- The second descriptor has the environments and the features of the first one that are at the
given positions, and their values and gradients. -/
structure Descriptor.Picks (rows columns : List Nat) (d part : Descriptor α) : Prop where
  environments : d.environments.Picks rows part.environments
  features : d.features.Picks columns part.features
  values : d.values.Picks rows columns part.values
  gradients : Option.Rel (Gradients.Picks part.environments columns) d.gradients part.gradients
  computed : part.computed = true

variable [Scalar α] {start : Systems (SimpleSystem α)} {environments features environments'
  features' : Labels} {rows columns : List Nat} {workers : Workers}

/-! ### Kernels -/

namespace Kernel

/-- What a calculation gives for some environments and features. -/
def answerAround (k : Kernel α) (workers : Workers) (start : Systems (SimpleSystem α))
    (environments features : Labels) : Except Error (Descriptor α) := do
  let prepared ← k.preparedAround start environments features
  let filled ← k.filledAround workers start prepared
  return { filled with computed := true }

theorem preparedAround_dummy_eq_ok {k : DummyKernel α} (having : k.gradients = true)
    {prepared : Descriptor α} :
    (dummy k).preparedAround start environments features = .ok prepared ↔
      ∃ t, Strategy.gradientTableAround k.cutoff start environments = .ok (some t) ∧
        environments.names.isPrefixOf t.names = true ∧
        { Descriptor.prepared environments features with
          gradients := some ⟨t, Dense.zeros t.count features.count⟩ } = prepared := by
  rw [preparedAround, having]
  constructor
  · intro h
    obtain ⟨found, hfound, h⟩ := except_bind_eq_ok.1 h
    cases found with
    | none => cases h
    | some t => exact ⟨t, hfound, Descriptor.preparedWithGradients_eq_ok.1 h⟩
  · rintro ⟨t, hfound, h⟩
    exact except_bind_eq_ok.2 ⟨some t, hfound, Descriptor.preparedWithGradients_eq_ok.2 h⟩

theorem tables_preparedAround {k : Kernel α} {prepared : Descriptor α}
    (h : k.preparedAround start environments features = .ok prepared) :
    prepared.environments = environments ∧ prepared.features = features := by
  cases k with
  | sortedDistances k =>
    cases h
    exact ⟨rfl, rfl⟩
  | dummy k =>
    by_cases having : k.gradients = true
    · obtain ⟨t, -, -, rfl⟩ := (preparedAround_dummy_eq_ok having).1 h
      exact ⟨rfl, rfl⟩
    · rw [preparedAround, if_pos (by simpa using having)] at h
      cases h
      exact ⟨rfl, rfl⟩

/-- Kernels fill the descriptor that was prepared for them. -/
theorem tables_answerAround {k : Kernel α} {full : Descriptor α}
    (h : k.answerAround workers start environments features = .ok full) :
    full.environments = environments ∧ full.features = features := by
  obtain ⟨prepared, hprepared, h⟩ := except_bind_eq_ok.1 h
  obtain ⟨filled, hfilled, h⟩ := except_bind_eq_ok.1 h
  cases h
  have tables := tables_preparedAround hprepared
  cases k with
  | sortedDistances k =>
    obtain ⟨lists, -, h⟩ := except_bind_eq_ok.1 hfilled
    cases h
    exact tables
  | dummy k =>
    obtain ⟨⟨fs, lists⟩, -, h⟩ := except_bind_eq_ok.1 hfilled
    cases h
    exact tables

/-- Gradients prepared for some environments and features, out of those for all of them. -/
structure PreparesGradients (environments' : Labels) (n n' : Nat) (g g' : Gradients α) : Prop where
  labels : g.labels.Picks (environments'.positionsUnder g.labels) g'.labels
  values : g.values = Dense.zeros g.labels.count n
  values' : g'.values = Dense.zeros g'.labels.count n'

/-- What is prepared for some environments and features. -/
theorem exists_preparedAround {k : Kernel α} (hrows : environments.Picks rows environments')
    (names : environments.names = k.strategy.names) {prepared : Descriptor α}
    (h : k.preparedAround start environments features = .ok prepared) :
    ∃ gs gs', prepared = { Descriptor.prepared environments features with gradients := gs } ∧
      k.preparedAround start environments' features'
        = .ok { Descriptor.prepared environments' features' with gradients := gs' } ∧
      Option.Rel (PreparesGradients environments' features.count features'.count) gs gs' := by
  have sameNames : environments'.names = k.strategy.names := hrows.names.trans names
  cases k with
  | sortedDistances k =>
    cases h
    exact ⟨none, none, rfl, rfl, .none⟩
  | dummy k =>
    by_cases having : k.gradients = true
    · obtain ⟨t, ht, starts, rfl⟩ := (preparedAround_dummy_eq_ok having).1 h
      obtain ⟨_, t', ⟨⟩, ht', tnames, trows⟩ := Strategy.gradientTableAround_of_subset
        (congrArg List.length names) (congrArg List.length sameNames) hrows.rows.subset ht
      rw [← tnames, ← hrows.names] at starts
      refine ⟨_, _, rfl, (preparedAround_dummy_eq_ok having).2 ⟨t', ht', starts, rfl⟩, .some ?_⟩
      refine ⟨⟨tnames, ?_⟩, rfl, rfl⟩
      rw [Labels.positionsUnder, show environments'.size = 2 from congrArg List.length sameNames,
        trows]
      exact picks_filter _ _
    · rw [preparedAround, if_pos (by simpa using having)] at h ⊢
      cases h
      exact ⟨none, none, rfl, rfl, .none⟩

/-- Gradients that are the same in each row are picked with their columns. -/
theorem picks_slopes {g g' : Gradients α} (hcolumns : columns.length = features'.count)
    (within : ∀ j ∈ columns, j < features.count)
    (h : PreparesGradients environments' features.count features'.count g g')
    {slopes slopes' : List α} (picked : Picks columns slopes slopes') :
    Gradients.Picks environments' columns
      { g with values := g.values.write (List.replicate g.values.rows slopes) }
      { g' with values := g'.values.write (List.replicate g'.values.rows slopes') } := by
  refine ⟨h.labels, ?_⟩
  have kept : ∀ r ∈ environments'.positionsUnder g.labels, r < g.labels.count := fun r hr =>
    List.lt_add_of_mem_findIdxs r hr
  dsimp only
  rw [h.values, h.values']
  refine Dense.picks_write kept within h.labels.rows.length_eq hcolumns ?_
  refine List.forall₂_iff_get.2 ⟨?_, fun i hi hi' => ⟨slopes, ?_, ?_⟩⟩
  · rw [List.length_replicate]
    exact h.labels.rows.length_eq
  · exact List.getElem?_replicate_of_lt (kept _ (List.get_mem _ _))
  · rw [List.get_eq_getElem, List.getElem_replicate]
    exact picked

/-- What a calculation gives for some environments and features is part of what it gives for all. -/
theorem picks_answerAround {k : Kernel α} (workers' : Workers)
    (hrows : environments.Picks rows environments') (hcolumns : features.Picks columns features')
    (names : environments.names = k.strategy.names)
    (within : ∀ i ∈ rows, i < environments.count) (within' : ∀ j ∈ columns, j < features.count)
    {full : Descriptor α} (h : k.answerAround workers start environments features = .ok full) :
    ∃ part, k.answerAround workers' start environments' features' = .ok part ∧
      full.Picks rows columns part := by
  obtain ⟨prepared, hprepared, h⟩ := except_bind_eq_ok.1 h
  obtain ⟨filled, hfilled, h⟩ := except_bind_eq_ok.1 h
  cases h
  obtain ⟨gs, gs', rfl, hprepared', prepares⟩ := exists_preparedAround hrows names hprepared
  have count : columns.length = features'.count := hcolumns.rows.length_eq
  cases k with
  | sortedDistances k =>
    obtain ⟨lists, hlists, h⟩ := except_bind_eq_ok.1 hfilled
    cases h
    obtain ⟨lists', hlists', both⟩ := SortedDistances.picks_valuesAround hrows hcolumns hlists
    refine ⟨_, except_bind_eq_ok.2 ⟨_, hprepared', except_bind_eq_ok.2 ⟨_, except_bind_eq_ok.2
      ⟨lists', hlists', rfl⟩, rfl⟩⟩, hrows, hcolumns, ?_, ?_, rfl⟩
    · exact Dense.picks_write within within' hrows.rows.length_eq count both
    · cases hprepared
      cases hprepared'
      exact .none
  | dummy k =>
    obtain ⟨⟨fs, lists⟩, hlists, h⟩ := except_bind_eq_ok.1 hfilled
    cases h
    obtain ⟨fs', lists', hlists', picked, both⟩ :=
      DummyKernel.picks_valuesAround workers' hrows hcolumns hlists
    refine ⟨_, except_bind_eq_ok.2 ⟨_, hprepared', except_bind_eq_ok.2 ⟨_, except_bind_eq_ok.2
      ⟨⟨fs', lists'⟩, hlists', rfl⟩, rfl⟩⟩, hrows, hcolumns, ?_, ?_, rfl⟩
    · exact Dense.picks_write within within' hrows.rows.length_eq count both
    · cases prepares with
      | none => exact .none
      | some found => exact .some (picks_slopes count within' found (picked.map DummyFeature.slope))

/-- With any workers it is the same. -/
theorem answerAround_of_ok {k : Kernel α} (workers' : Workers) {full : Descriptor α}
    (h : k.answerAround workers start environments features = .ok full) :
    k.answerAround workers' start environments features = .ok full := by
  obtain ⟨prepared, hprepared, h⟩ := except_bind_eq_ok.1 h
  obtain ⟨filled, hfilled, h⟩ := except_bind_eq_ok.1 h
  refine except_bind_eq_ok.2 ⟨prepared, hprepared, except_bind_eq_ok.2 ⟨filled, ?_, h⟩⟩
  exact filledAround_of_ok workers' hfilled

end Kernel

/-! ### Calculations -/

namespace Calculator

variable {c : Calculator α} {samples selected : Selection} {full : Descriptor α}

theorem givesAround_eq_ok : c.givesAround workers start samples selected = .ok full ↔
    ∃ environments features, c.environmentsAround start samples = .ok environments ∧
      c.selectedFeatures selected = .ok features ∧
      c.kernel.answerAround workers start environments features = .ok full := by
  rw [givesAround, readyAround]
  constructor
  · intro h
    obtain ⟨prepared, hprepared, h⟩ := except_bind_eq_ok.1 h
    obtain ⟨environments, henvironments, hprepared⟩ := except_bind_eq_ok.1 hprepared
    obtain ⟨features, hfeatures, hprepared⟩ := except_bind_eq_ok.1 hprepared
    exact ⟨environments, features, henvironments, hfeatures,
      except_bind_eq_ok.2 ⟨prepared, hprepared, h⟩⟩
  · rintro ⟨environments, features, henvironments, hfeatures, h⟩
    obtain ⟨prepared, hprepared, h⟩ := except_bind_eq_ok.1 h
    exact except_bind_eq_ok.2 ⟨prepared, except_bind_eq_ok.2 ⟨environments, henvironments,
      except_bind_eq_ok.2 ⟨features, hfeatures, hprepared⟩⟩, h⟩

/-- Environments and features that are picked are selected by their positions or by their labels. -/
theorem exists_part_around (h : c.givesAround workers start .all .all = .ok full)
    (distinct : rows.Nodup) (distinct' : columns.Nodup)
    (within : ∀ i ∈ rows, i < full.environments.count)
    (within' : ∀ j ∈ columns, j < full.features.count) :
    ∃ part, full.Picks rows columns part ∧ ∀ samples selected : Selection,
      (samples = .rows rows ∨ samples = .values part.environments) →
      (selected = .rows columns ∨ selected = .values part.features) →
      ∀ workers', c.givesAround workers' start samples selected = .ok part := by
  obtain ⟨environments, features, henvironments, hfeatures, h⟩ := givesAround_eq_ok.1 h
  obtain ⟨rfl, rfl⟩ := Kernel.tables_answerAround h
  obtain ⟨environments', hrows⟩ := Labels.exists_picks distinct within
  obtain ⟨features', hcolumns⟩ := Labels.exists_picks distinct' within'
  obtain ⟨⟨⟩, hcheck, henvironments⟩ := except_bind_eq_ok.1 henvironments
  obtain ⟨t, ht, henvironments⟩ := except_bind_eq_ok.1 henvironments
  obtain ⟨t', ht', hfeatures⟩ := except_bind_eq_ok.1 hfeatures
  cases henvironments
  cases hfeatures
  obtain ⟨part, hpart, picked⟩ := Kernel.picks_answerAround workers hrows hcolumns
    (Kernel.names_environmentsAround ht) within within' h
  obtain ⟨same, same'⟩ := Kernel.tables_answerAround hpart
  refine ⟨part, picked, fun samples selected hsamples hselected workers' => givesAround_eq_ok.2
    ⟨environments', features', ?_, ?_, Kernel.answerAround_of_ok workers' hpart⟩⟩
  · refine except_bind_eq_ok.2 ⟨(), hcheck, except_bind_eq_ok.2 ⟨_, ht, ?_⟩⟩
    rcases hsamples with rfl | rfl
    · exact Selection.select_rows distinct within hrows
    · rw [same]
      exact Selection.select_values hrows.names hrows.rows.subset
  · refine except_bind_eq_ok.2 ⟨_, ht', ?_⟩
    rcases hselected with rfl | rfl
    · exact Selection.select_rows distinct' within' hcolumns
    · rw [same']
      exact Selection.select_values hcolumns.names hcolumns.rows.subset

/-- A calculation for some of the environments and features gives their part of the whole
descriptor, whether they are given by their positions or by their labels. -/
theorem exists_part (c : Calculator α) {native : Bool} {systems : Systems (SimpleSystem α)}
    {d : Descriptor α} (h : c.gives workers ⟨native, .all, .all⟩ systems d = .ok full)
    (distinct : rows.Nodup) (distinct' : columns.Nodup)
    (within : ∀ i ∈ rows, i < full.environments.count)
    (within' : ∀ j ∈ columns, j < full.features.count) :
    ∃ part, full.Picks rows columns part ∧
      ∀ (samples selected : Selection) (start : Systems (SimpleSystem α)) (old : Descriptor α)
        (workers' : Workers),
        (samples = .rows rows ∨ samples = .values part.environments) →
        (selected = .rows columns ∨ selected = .values part.features) →
        (start = systems ∨
          start = ((c.compute workers ⟨native, .all, .all⟩).outcome (systems, d)).2.1.1) →
        c.gives workers' ⟨native, samples, selected⟩ start old = .ok part := by
  cases native with
  | false =>
    -- the whole calculation leaves systems that were asked for neighbors, but answer the same
    obtain ⟨given, left⟩ := c.gives_eq_givesAround workers .all .all warmed_self d
    rw [given] at h
    obtain ⟨part, picked, hpart⟩ := exists_part_around h distinct distinct' within within'
    refine ⟨part, picked, fun samples selected start old workers' hsamples hselected hstart => ?_⟩
    have warmed : Warmed c.kernel.cutoff systems [] start := by
      rcases hstart with rfl | rfl
      · exact warmed_self
      · exact left full h
    rw [(c.gives_eq_givesAround workers' samples selected warmed old).1]
    exact hpart samples selected hsamples hselected workers'
  | true =>
    -- only the copies are asked, and each calculation makes its own
    obtain ⟨given, left⟩ := c.gives_native workers .all .all systems d
    rw [given] at h
    obtain ⟨copies, hcopies, h⟩ := except_bind_eq_ok.1 h
    rw [(c.gives_eq_givesAround workers .all .all warmed_self d).1] at h
    obtain ⟨part, picked, hpart⟩ := exists_part_around h distinct distinct' within within'
    refine ⟨part, picked, fun samples selected start old workers' hsamples hselected hstart => ?_⟩
    have unchanged : start = systems := by
      rcases hstart with rfl | rfl
      · rfl
      · exact left
    rw [unchanged, (c.gives_native workers' samples selected systems old).1]
    refine except_bind_eq_ok.2 ⟨copies, hcopies, ?_⟩
    rw [(c.gives_eq_givesAround workers' samples selected warmed_self old).1]
    exact hpart samples selected hsamples hselected workers'

end Calculator

/-! ### Two atoms -/

section TwoAtoms

/-- Two atoms that were found to be neighbors. -/
def dimer : SimpleSystem Float where
  cell := .infinite
  species := #[1, 1]
  positions := #[⟨0, 0, 0⟩, ⟨0, 0, 0.5⟩]
  neighbors :=
    let pair : Pair Float := ⟨0, 1, ⟨0, 0, 0.5⟩⟩
    some ⟨1, [pair], #[#[pair], #[pair]]⟩

theorem width_bothAtoms : ∀ row ∈ ([[0, 0], [0, 1]] : List (List Int)), row.length = 2 := by
  decide

theorem nodup_bothAtoms : ([[0, 0], [0, 1]] : List (List Int)).Nodup := by decide

/-- The atoms of the dimer. -/
def bothAtoms : Labels :=
  ⟨["structure", "center"], [[0, 0], [0, 1]], namesValid_centers, width_bothAtoms, nodup_bothAtoms⟩

/-- The directions in which the neighbor of each atom can move. -/
def bothDirections : Labels :=
  ⟨["structure", "center", "neighbor", "spatial"], [[0, 0, 1], [0, 1, 0]].flatMap spatialRows,
    namesValid_neighbors, by decide, by decide⟩

theorem around_dimer : around (1 : Float) #[dimer] 0 = .ok dimer := by
  have positive : Scalar.isPositiveFinite (1 : Float) = true := by decide
  have kept : dimer.hasNeighborsFor 1 = true := by decide
  exact SimpleSystem.withNeighbors_eq_ok.2 ⟨positive, .inl ⟨kept, rfl⟩⟩

theorem requestedSystems_bothAtoms : requestedSystems bothAtoms = .ok [0] := by
  change Except.ok (sortedLabels [0, 0]) = _
  rw [sortedLabels_eq (List.pairwise_singleton _ 0) (by simp)]

theorem gradientTableAround_dimer : Strategy.gradientTableAround (1 : Float) #[dimer] bothAtoms
    = .ok (some bothDirections) := by
  have found : Strategy.atomGradientsAround (1 : Float) #[dimer] bothAtoms 0
      = .ok [[0, 0, 1], [0, 1, 0]] := by
    refine except_bind_eq_ok.2 ⟨0, rfl, except_bind_eq_ok.2 ⟨dimer, around_dimer, ?_⟩⟩
    rfl
  refine except_bind_eq_ok.2 ⟨[[0, 0, 1], [0, 1, 0]], ?_, except_bind_eq_ok.2 ⟨_, rfl, ?_⟩⟩
  · refine except_bind_eq_ok.2 ⟨[0], requestedSystems_bothAtoms, except_bind_eq_ok.2 ⟨_,
      except_mapM_eq_ok.2 (.cons found .nil), ?_⟩⟩
    exact congrArg Except.ok (sortedRows_eq (by decide) (by simp))
  · exact except_bind_eq_ok.2 ⟨bothDirections, Labels.ofRows_eq_ok.2 ⟨rfl, rfl⟩, rfl⟩

theorem environmentsAround_dimer :
    (sums true).environmentsAround #[dimer] .all = .ok bothAtoms := by
  refine except_bind_eq_ok.2 ⟨(), check_sums true, except_bind_eq_ok.2 ⟨bothAtoms, ?_, rfl⟩⟩
  refine except_bind_eq_ok.2 ⟨[[0, 0], [0, 1]], rfl, except_bind_eq_ok.2 ⟨_, rfl, ?_⟩⟩
  exact Labels.ofRows_eq_ok.2 ⟨rfl, rfl⟩

/-- The calculator finishes for the dimer. -/
theorem givesAround_dimer (workers : Workers) : ∃ full,
    (sums true).givesAround workers #[dimer] .all .all = .ok full ∧
      full.environments = bothAtoms ∧ full.features = bothFeatures := by
  obtain ⟨prepared, hprepared⟩ : ∃ prepared,
      (sums true).kernel.preparedAround #[dimer] bothAtoms bothFeatures = .ok prepared :=
    ⟨_, (Kernel.preparedAround_dummy_eq_ok rfl).2 ⟨_, gradientTableAround_dimer, rfl, rfl⟩⟩
  obtain ⟨tables, tables'⟩ := Kernel.tables_preparedAround hprepared
  obtain ⟨filled, hfilled⟩ : ∃ filled,
      (sums true).kernel.filledAround Workers.inOrder #[dimer] prepared = .ok filled := by
    simp only [sums, Kernel.filledAround, DummyKernel.valuesAround, tables, tables',
      requestedSystems_bothAtoms]
    exact ⟨_, rfl⟩
  have answer : (sums true).kernel.answerAround Workers.inOrder #[dimer] bothAtoms bothFeatures
      = .ok { filled with computed := true } :=
    except_bind_eq_ok.2 ⟨prepared, hprepared, except_bind_eq_ok.2 ⟨filled, hfilled, rfl⟩⟩
  exact ⟨_, Calculator.givesAround_eq_ok.2 ⟨bothAtoms, bothFeatures, environmentsAround_dimer,
    selectedFeatures_sums true, Kernel.answerAround_of_ok workers answer⟩,
    Kernel.tables_answerAround answer⟩

/-- The last atom and the sum of coordinates. -/
theorem exists_part_dimer : ∃ full part,
    (sums true).gives .inOrder .all #[dimer] .new = .ok full ∧ full.Picks [1] [1] part ∧
      (sums true).gives .inOrder ⟨false, .rows [1], .values part.features⟩ #[dimer] full
        = .ok part := by
  obtain ⟨full, hfull, environments, features⟩ := givesAround_dimer .inOrder
  have given : (sums true).gives .inOrder .all #[dimer] .new = .ok full :=
    ((sums true).gives_eq_givesAround .inOrder .all .all warmed_self .new).1.trans hfull
  obtain ⟨part, picked, again⟩ := (sums true).exists_part given (List.nodup_singleton 1)
    (List.nodup_singleton 1) (by rw [environments]; decide) (by rw [features]; decide)
  exact ⟨full, part, given, picked,
    again _ _ _ full .inOrder (.inl rfl) (.inr rfl) (.inl rfl)⟩

end TwoAtoms

end Atomistic
