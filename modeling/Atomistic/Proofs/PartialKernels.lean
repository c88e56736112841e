import Atomistic.Proofs.PickedRows
import Atomistic.Proofs.SettledKernels

/-!
# Kernels on some environments and features

Kernels only look at the systems of the environments that they are given. What they compute for some
environments and features is what they compute for all of them, at the rows and columns of these
environments and features; and the gradient rows of some environments are those of all environments
that begin with one of them.
-/

namespace Atomistic

open Systems

variable {α : Type} [Scalar α] {start : Systems (SimpleSystem α)}
  {environments features environments' features' : Labels} {rows columns : List Nat}

/-- Some of the environments are in some of the systems. -/
theorem requestedSystems_of_subset {labels : List Int}
    (h : requestedSystems environments = .ok labels)
    (sub : environments'.rows ⊆ environments.rows) :
    ∃ labels', requestedSystems environments' = .ok labels' ∧ labels' ⊆ labels := by
  obtain ⟨found, hfound, h⟩ := except_bind_eq_ok.1 h
  cases h
  obtain ⟨found', hfound', subset⟩ := except_mapM_of_subset hfound sub
  refine ⟨_, except_bind_eq_ok.2 ⟨found', hfound', rfl⟩, fun label hlabel => ?_⟩
  rw [mem_sortedLabels] at hlabel ⊢
  exact subset hlabel

/-! ### Values -/

namespace SortedDistances

variable {k : SortedDistances α}

omit [Scalar α] in
/-- The distances of a requested system are found again. -/
theorem getD_shells {x : Nat → Except Error (Shells α)} {systems : List Nat}
    {shells : List (Nat × Shells α)} (distinct : systems.Nodup)
    (h : systems.mapM (fun i => do return (i, ← x i)) = .ok shells) {i : Nat} (hi : i ∈ systems) :
    x i = .ok ((Std.HashMap.ofList shells).getD i ∅) := by
  have keys : shells.map (·.1) = systems := by
    rw [← List.forall₂_eq_eq_eq, List.forall₂_map_left_iff]
    refine ((except_mapM_eq_ok.1 h).imp fun i entry hentry => ?_).flip
    obtain ⟨found, -, hentry⟩ := except_bind_eq_ok.1 hentry
    cases hentry
    rfl
  have apart : shells.Pairwise fun entry other => (entry.1 == other.1) = false := by
    rw [← keys, List.Nodup, List.pairwise_map] at distinct
    exact distinct.imp fun differ => beq_false_of_ne differ
  obtain ⟨entry, hentry⟩ := exists_mapM_eq_ok.1 ⟨shells, h⟩ i hi
  have there := (mem_of_mapM_eq_ok h).2 ⟨i, hi, hentry⟩
  obtain ⟨found, hfound, hentry⟩ := except_bind_eq_ok.1 hentry
  cases hentry
  rw [hfound, Std.HashMap.getD_ofList_of_mem (beq_self_eq_true i) apart there]

/-- The values of an environment are picked with their features, if the distances in its system are
the same. -/
theorem picks_row {shells shells' : Std.HashMap Nat (Shells α)}
    (hcolumns : features.Picks columns features') {environment : List Int}
    (same : ∀ i, positionAt environment 0 = .ok i → shells'.getD i ∅ = shells.getD i ∅)
    {row : List α} (h : k.row shells features environment = .ok row) :
    ∃ picked, k.row shells' features' environment = .ok picked ∧ Picks columns row picked := by
  obtain ⟨i, hi, h⟩ := except_bind_eq_ok.1 h
  obtain ⟨center, hcenter, h⟩ := except_bind_eq_ok.1 h
  obtain ⟨species, hspecies, h⟩ := except_bind_eq_ok.1 h
  obtain ⟨picked, hpicked, both⟩ := hcolumns.rows.mapM h
  refine ⟨picked, ?_, both⟩
  rw [← same i hi] at hpicked
  exact except_bind_eq_ok.2 ⟨i, hi, except_bind_eq_ok.2 ⟨center, hcenter, except_bind_eq_ok.2
    ⟨species, hspecies, hpicked⟩⟩⟩

/-- Values are picked with their environments and features. -/
theorem picks_valuesAround {lists : List (List α)}
    (hrows : environments.Picks rows environments') (hcolumns : features.Picks columns features')
    (h : k.valuesAround start environments features = .ok lists) :
    ∃ lists', k.valuesAround start environments' features' = .ok lists' ∧
      PicksBoth rows columns lists lists' := by
  obtain ⟨labels, hlabels, h⟩ := except_bind_eq_ok.1 h
  obtain ⟨systems, hsystems, h⟩ := except_bind_eq_ok.1 h
  obtain ⟨shells, hshells, hlists⟩ := except_bind_eq_ok.1 h
  obtain ⟨labels', hlabels', sub⟩ := requestedSystems_of_subset hlabels hrows.rows.subset
  obtain ⟨systems', hsystems', sub'⟩ := except_mapM_of_subset hsystems sub
  obtain ⟨shells', hshells', -⟩ := except_mapM_of_subset hshells sub'
  have same : ∀ environment ∈ environments'.rows, ∀ i, positionAt environment 0 = .ok i →
      (Std.HashMap.ofList shells').getD i ∅ = (Std.HashMap.ofList shells).getD i ∅ := by
    intro environment there i hi
    obtain ⟨label, hlabel, hposition⟩ := except_bind_eq_ok.1 hi
    have wanted := (mem_of_requestedSystems hlabels').2 ⟨environment, there, hlabel⟩
    have asked := (mem_of_mapM_eq_ok hsystems').2 ⟨label, wanted, hposition⟩
    have found := getD_shells (nodup_of_requestedSystems hlabels hsystems) hshells (sub' asked)
    have found' := getD_shells (nodup_of_requestedSystems hlabels' hsystems') hshells' asked
    exact Except.ok.inj (found'.symm.trans found)
  obtain ⟨lists', hlists', both⟩ := hrows.rows.mapM_both hlists
    fun environment there _ hrow => picks_row hcolumns (same environment there) hrow
  refine ⟨lists', ?_, both⟩
  exact except_bind_eq_ok.2 ⟨labels', hlabels', except_bind_eq_ok.2 ⟨systems', hsystems',
    except_bind_eq_ok.2 ⟨shells', hshells', hlists'⟩⟩⟩

end SortedDistances

namespace DummyKernel

variable {k : DummyKernel α}

/-- The values of an environment are picked with their features. -/
theorem picks_rowAround {fs fs' : List DummyFeature} (hfs : Picks columns fs fs')
    (environment : List Int) {row : List α}
    (h : k.rowAround start fs environment = .ok row) :
    ∃ picked, k.rowAround start fs' environment = .ok picked ∧ Picks columns row picked := by
  obtain ⟨i, hi, h⟩ := except_bind_eq_ok.1 h
  obtain ⟨s, hs, h⟩ := except_bind_eq_ok.1 h
  obtain ⟨center, hcenter, h⟩ := except_bind_eq_ok.1 h
  obtain ⟨picked, hpicked, both⟩ := hfs.mapM h
  refine ⟨picked, ?_, both⟩
  exact except_bind_eq_ok.2 ⟨i, hi, except_bind_eq_ok.2 ⟨s, hs, except_bind_eq_ok.2
    ⟨center, hcenter, hpicked⟩⟩⟩

/-- Values are picked with their environments and features. -/
theorem picks_valuesAround {workers : Workers} (workers' : Workers) {fs : List DummyFeature}
    {lists : List (List α)} (hrows : environments.Picks rows environments')
    (hcolumns : features.Picks columns features')
    (h : k.valuesAround workers start environments features = .ok (fs, lists)) :
    ∃ fs' lists', k.valuesAround workers' start environments' features' = .ok (fs', lists') ∧
      Picks columns fs fs' ∧ PicksBoth rows columns lists lists' := by
  obtain ⟨fs, hfs, h⟩ := except_bind_eq_ok.1 h
  obtain ⟨labels, hlabels, h⟩ := except_bind_eq_ok.1 h
  obtain ⟨systems, hsystems, h⟩ := except_bind_eq_ok.1 h
  obtain ⟨⟨⟩, hasked, h⟩ := except_bind_eq_ok.1 h
  obtain ⟨lists, hlists, h⟩ := except_bind_eq_ok.1 h
  cases h
  rw [Workers.all_map_eq_ok] at hlists
  obtain ⟨fs', hfs', picked⟩ := hcolumns.rows.mapM hfs
  obtain ⟨labels', hlabels', sub⟩ := requestedSystems_of_subset hlabels hrows.rows.subset
  obtain ⟨systems', hsystems', sub'⟩ := except_mapM_of_subset hsystems sub
  have hasked' : (systems'.forM fun i => (around k.cutoff start i).map fun _ => ()) = .ok () := by
    rw [except_forM_eq_ok] at hasked ⊢
    exact fun i hi => hasked i (sub' hi)
  obtain ⟨lists', hlists', both⟩ := hrows.rows.mapM_both hlists
    fun environment _ row => picks_rowAround picked environment
  refine ⟨fs', lists', ?_, picked, both⟩
  exact except_bind_eq_ok.2 ⟨fs', hfs', except_bind_eq_ok.2 ⟨labels', hlabels',
    except_bind_eq_ok.2 ⟨systems', hsystems', except_bind_eq_ok.2 ⟨(), hasked',
      except_bind_eq_ok.2 ⟨lists', Workers.all_map_eq_ok.2 hlists', rfl⟩⟩⟩⟩⟩

end DummyKernel

/-! ### Gradient rows -/

namespace Strategy

variable {cutoff : α}

/-- Gradient rows are kept in all directions, or in none. -/
theorem filter_flatMap_spatialRows {p : List Int → Bool} :
    ∀ {rows : List (List Int)}, (∀ row ∈ rows, ∀ more, p (row ++ more) = p row) →
      (rows.flatMap spatialRows).filter p = (rows.filter p).flatMap spatialRows
  | [], _ => rfl
  | row :: rows, h => by
    rw [List.forall_mem_cons] at h
    rw [List.flatMap_cons, List.filter_append, filter_flatMap_spatialRows h.2, List.filter_cons]
    cases hp : p row with
    | false => simp [spatialRows, h.1, hp]
    | true => simp [spatialRows, h.1, hp]

/-- The gradient rows of some environments in a system are those that begin with one of them. -/
theorem atomGradientsAround_of_subset (names : environments.names.length = 2)
    (names' : environments'.names.length = 2) (sub : environments'.rows ⊆ environments.rows)
    {system : Int} {found : List (List Int)}
    (h : atomGradientsAround cutoff start environments system = .ok found) :
    ∃ found', atomGradientsAround cutoff start environments' system = .ok found' ∧
      ∀ row, row ∈ found' ↔ row ∈ found ∧ row.take 2 ∈ environments'.rows := by
  obtain ⟨i, hi, h⟩ := except_bind_eq_ok.1 h
  obtain ⟨s, hs, h⟩ := except_bind_eq_ok.1 h
  obtain ⟨centers, hcenters, h⟩ := except_bind_eq_ok.1 h
  obtain ⟨pairs, hpairs, h⟩ := except_bind_eq_ok.1 h
  cases h
  obtain ⟨centers', hcenters', -⟩ := except_mapM_of_subset hcenters
    (List.filter_subset _ sub)
  refine ⟨_, except_bind_eq_ok.2 ⟨i, hi, except_bind_eq_ok.2 ⟨s, hs, except_bind_eq_ok.2
    ⟨centers', hcenters', except_bind_eq_ok.2 ⟨pairs, hpairs, rfl⟩⟩⟩⟩, fun row => ⟨?_, ?_⟩⟩
  · intro hrow
    obtain ⟨⟨center, neighbor⟩, hseen, rfl⟩ := List.mem_map.1 hrow
    obtain ⟨hseen, hcenter⟩ := List.mem_filter.1 hseen
    have chosen := (mem_centers names' hcenters').1 (by simpa using hcenter)
    have hcenter : center ∈ centers := (mem_centers names hcenters).2 (sub chosen)
    exact ⟨List.mem_map.2 ⟨_, List.mem_filter.2 ⟨hseen, by simpa using hcenter⟩, rfl⟩, chosen⟩
  · rintro ⟨hrow, chosen⟩
    obtain ⟨⟨center, neighbor⟩, hseen, rfl⟩ := List.mem_map.1 hrow
    obtain ⟨hseen, -⟩ := List.mem_filter.1 hseen
    have hcenter : center ∈ centers' := (mem_centers names' hcenters').2 chosen
    exact List.mem_map.2 ⟨_, List.mem_filter.2 ⟨hseen, by simpa using hcenter⟩, rfl⟩

/-- Gradient rows begin with the number of their system. -/
theorem head?_of_mem_atomGradientsAround {system : Int} {found : List (List Int)}
    (h : atomGradientsAround cutoff start environments system = .ok found) {row : List Int}
    (hrow : row ∈ found) : row.head? = some system ∧ row.length = 3 := by
  obtain ⟨i, -, h⟩ := except_bind_eq_ok.1 h
  obtain ⟨s, -, h⟩ := except_bind_eq_ok.1 h
  obtain ⟨centers, -, h⟩ := except_bind_eq_ok.1 h
  obtain ⟨pairs, -, h⟩ := except_bind_eq_ok.1 h
  cases h
  obtain ⟨seen, -, rfl⟩ := List.mem_map.1 hrow
  exact ⟨rfl, rfl⟩

theorem length_of_mem_gradientRowsAround {found : List (List Int)}
    (h : gradientRowsAround cutoff start environments = .ok found) {row : List Int}
    (hrow : row ∈ found) : row.length = 3 := by
  obtain ⟨labels, -, h⟩ := except_bind_eq_ok.1 h
  obtain ⟨bySystem, hbySystem, h⟩ := except_bind_eq_ok.1 h
  cases h
  rw [mem_sortedRows, mem_flatten_of_mapM_eq_ok hbySystem] at hrow
  obtain ⟨system, -, there, hthere, hrow⟩ := hrow
  exact (head?_of_mem_atomGradientsAround hthere hrow).2

/-- The gradient rows of some environments are those that begin with one of them. -/
theorem gradientRowsAround_of_subset (names : environments.names.length = 2)
    (names' : environments'.names.length = 2) (sub : environments'.rows ⊆ environments.rows)
    {found : List (List Int)}
    (h : gradientRowsAround cutoff start environments = .ok found) :
    gradientRowsAround cutoff start environments'
      = .ok (found.filter fun row => environments'.rows.contains (row.take 2)) := by
  obtain ⟨labels, hlabels, h⟩ := except_bind_eq_ok.1 h
  obtain ⟨bySystem, hbySystem, h⟩ := except_bind_eq_ok.1 h
  cases h
  obtain ⟨labels', hlabels', subset⟩ := requestedSystems_of_subset hlabels sub
  have each : ∀ system ∈ labels, ∃ there, atomGradientsAround cutoff start environments system
      = .ok there := exists_mapM_eq_ok.1 ⟨bySystem, hbySystem⟩
  obtain ⟨bySystem', hbySystem'⟩ : ∃ bySystem',
      labels'.mapM (atomGradientsAround cutoff start environments') = .ok bySystem' := by
    refine exists_mapM_eq_ok.2 fun system hsystem => ?_
    obtain ⟨there, hthere⟩ := each system (subset hsystem)
    obtain ⟨there', hthere', -⟩ := atomGradientsAround_of_subset names names' sub hthere
    exact ⟨there', hthere'⟩
  refine except_bind_eq_ok.2 ⟨labels', hlabels', except_bind_eq_ok.2 ⟨bySystem', hbySystem', ?_⟩⟩
  refine congrArg Except.ok (sortedRows_eq ((pairwise_sortedRows _).filter _) fun row => ?_)
  rw [List.mem_filter, mem_sortedRows, List.contains_iff_mem, mem_flatten_of_mapM_eq_ok hbySystem,
    mem_flatten_of_mapM_eq_ok hbySystem']
  constructor
  · rintro ⟨system, hsystem, there', hthere', hrow⟩
    obtain ⟨there, hthere⟩ := each system (subset hsystem)
    obtain ⟨same, hsame, mem_iff⟩ := atomGradientsAround_of_subset names names' sub hthere
    cases hthere'.symm.trans hsame
    obtain ⟨hrow, chosen⟩ := (mem_iff row).1 hrow
    exact ⟨⟨system, subset hsystem, there, hthere, hrow⟩, chosen⟩
  · rintro ⟨⟨system, -, there, hthere, hrow⟩, chosen⟩
    obtain ⟨there', hthere', mem_iff⟩ := atomGradientsAround_of_subset names names' sub hthere
    -- the system of the row is requested by the environment that the row begins with
    have wanted : system ∈ labels' := by
      refine (mem_of_requestedSystems hlabels').2 ⟨_, chosen, labelAt_eq_ok.2 ?_⟩
      obtain ⟨head, -⟩ := head?_of_mem_atomGradientsAround hthere hrow
      rw [List.getElem?_take_of_lt (by omega), ← List.head?_eq_getElem?, head]
    exact ⟨system, wanted, there', hthere', (mem_iff row).2 ⟨hrow, chosen⟩⟩

/-- The gradient table of some environments has the rows that begin with one of them. -/
theorem gradientTableAround_of_subset (names : environments.names.length = 2)
    (names' : environments'.names.length = 2) (sub : environments'.rows ⊆ environments.rows)
    {g : Option Labels} (h : gradientTableAround cutoff start environments = .ok g) :
    ∃ t t', g = some t ∧ gradientTableAround cutoff start environments' = .ok (some t') ∧
      t'.names = t.names ∧
      t'.rows = t.rows.filter fun row => environments'.rows.contains (row.take 2) := by
  obtain ⟨found, hfound, h⟩ := except_bind_eq_ok.1 h
  obtain ⟨checked, hchecked, h⟩ := except_bind_eq_ok.1 h
  obtain ⟨t, ht, h⟩ := except_bind_eq_ok.1 h
  cases h
  cases mapM_checkRow_eq_ok hchecked
  obtain ⟨tnames, trows⟩ := Labels.ofRows_eq_ok.1 ht
  let t' : Labels := ⟨t.names, t.rows.filter fun row => environments'.rows.contains (row.take 2),
    t.names_valid, fun row hrow => t.width row (List.mem_filter.1 hrow).1, t.nodup.filter _⟩
  have starts : ∀ row ∈ found, ∀ more, environments'.rows.contains ((row ++ more).take 2)
      = environments'.rows.contains (row.take 2) := by
    intro row hrow more
    rw [List.take_append_of_le_length]
    have := length_of_mem_gradientRowsAround hfound hrow
    omega
  obtain ⟨checked', hchecked', -⟩ := except_mapM_of_subset hchecked (List.filter_subset_self _)
  cases mapM_checkRow_eq_ok hchecked'
  refine ⟨t, t', rfl, ?_, rfl, rfl⟩
  refine except_bind_eq_ok.2 ⟨_, gradientRowsAround_of_subset names names' sub hfound,
    except_bind_eq_ok.2 ⟨_, hchecked', except_bind_eq_ok.2 ⟨t', ?_, rfl⟩⟩⟩
  refine Labels.ofRows_eq_ok.2 ⟨tnames, ?_⟩
  rw [← filter_flatMap_spatialRows starts, ← trows]

end Strategy

end Atomistic
