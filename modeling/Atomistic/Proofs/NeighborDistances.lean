import Atomistic.Proofs.AccountedCalculation
import Atomistic.Proofs.FloatOrder
import Atomistic.Proofs.SpeciesEnvironments

/-!
# Distances to neighbors in order

The distances around an atom are gathered from the pairs of its system, seen from both ends, by the
species of the other end; then they are sorted, and read by their rank, with the cutoff in the place
of missing ones. Where no atom is paired with itself and no two atoms are paired twice, each neighbor
gives one distance. So a row of values lists the nearest neighbors of one species, from the nearest
on, and all of them if there are not too many.
-/

namespace Atomistic

open Traced Systems

variable {σ α : Type}

/-! ### Distances that are gathered -/

/-- One more distance is put in front of those that have its atom and species. -/
theorem Shells.gather_concat (distances : List ((Nat × Int) × α)) (entry : (Nat × Int) × α) :
    gather (distances ++ [entry]) = (gather distances).insert entry.1
      (entry.2 :: (gather distances).getD entry.1 []) := by
  rw [gather, List.foldl_append]
  rfl

/-- Gathered distances are found in the opposite order. -/
theorem Shells.getD_gather (distances : List ((Nat × Int) × α)) (key : Nat × Int) :
    (gather distances).getD key [] = ((distances.filter (·.1 == key)).map (·.2)).reverse := by
  induction distances using List.reverseRecOn with
  | nil => exact Std.HashMap.getD_empty
  | append_singleton distances entry ih =>
    rw [gather_concat, Std.HashMap.getD_insert, List.filter_append, ih]
    by_cases here : entry.1 = key
    · simp [here, ih]
    · simp [here]

/-! ### Neighbors -/

namespace Account

variable {a : Account α} {center neighbor : Nat} {species : Int}

/-- The pairs of an atom with the atoms of a species. -/
def pairsAround (a : Account α) (center : Nat) (species : Int) : List (Pair α) :=
  a.pairs.filter fun p => p.contains center && a.speciesOf (p.other center) == species

theorem mem_pairsAround {p : Pair α} : p ∈ a.pairsAround center species ↔
    p ∈ a.pairs ∧ p.contains center = true ∧ a.speciesOf (p.other center) = species := by
  rw [pairsAround, List.mem_filter, Bool.and_eq_true, beq_iff_eq]

/-- The other atoms of these pairs are the neighbors of this species, each of them once. -/
structure ListsNeighbors (a : Account α) (center : Nat) (species : Int) (neighbors : List Nat) :
    Prop where
  nodup : neighbors.Nodup
  mem : ∀ neighbor, neighbor ∈ neighbors ↔
    a.Joins center neighbor ∧ a.speciesOf neighbor = species

theorem listsNeighbors (once : a.PairsOnce) (center : Nat) (species : Int) :
    a.ListsNeighbors center species ((a.pairsAround center species).map (·.other center)) where
  nodup := once.nodup_others List.filter_sublist fun _ hp => (mem_pairsAround.1 hp).2.1
  mem neighbor := by
    simp only [List.mem_map, mem_pairsAround, joins_iff]
    constructor
    · rintro ⟨p, ⟨hp, contains, rfl⟩, rfl⟩
      exact ⟨⟨p, hp, contains, rfl⟩, rfl⟩
    · rintro ⟨⟨p, hp, contains, rfl⟩, rfl⟩
      exact ⟨p, ⟨hp, contains, rfl⟩, rfl⟩

variable [Scalar α]

/-- If no atom is paired with itself, an atom and a species see the pairs of the atom with the atoms
of the species. -/
theorem filter_orientedDistances (apart : ∀ p ∈ a.pairs, p.first ≠ p.second) (center : Nat)
    (species : Int) : (a.orientedDistances.filter (·.1 == (center, species))).map (·.2)
      = (a.pairsAround center species).map Pair.distance := by
  rw [orientedDistances, pairsAround]
  generalize a.pairs = pairs at apart ⊢
  induction pairs with
  | nil => rfl
  | cons p pairs ih =>
    rw [List.forall_mem_cons] at apart
    rw [List.flatMap_cons, List.filter_append, List.map_append, ih apart.2, List.filter_cons]
    by_cases first : p.first = center
    · have second : p.second ≠ center := fun h => apart.1 (first.trans h.symm)
      by_cases here : a.speciesOf p.second = species <;>
        simp [Pair.contains, Pair.other, first, second, here]
    · by_cases second : p.second = center
      · by_cases here : a.speciesOf p.first = species <;>
          simp [Pair.contains, Pair.other, first, second, here]
      · simp [Pair.contains, first, second]

end Account

/-! ### Distances in order -/

/-- The distances to the neighbors of a species, in order. -/
structure Account.Ranks (a : Account Float) (center : Nat) (species : Int) (sorted : List Float) :
    Prop where
  perm : sorted.Perm ((a.pairsAround center species).map Pair.distance)
  increasing : sorted.Pairwise fun x y => Scalar.totalLe x y = true

theorem Account.ranks_distancesAround {a : Account Float} (once : a.PairsOnce) (center : Nat)
    (species : Int) : a.Ranks center species (a.distancesAround center species) := by
  have found : (Shells.gather a.orientedDistances).getD (center, species) []
      = ((a.pairsAround center species).map Pair.distance).reverse := by
    rw [Shells.getD_gather, filter_orientedDistances once.apart]
  rw [distancesAround, Shells.sorted, found]
  exact ⟨(List.mergeSort_perm _ _).trans (List.reverse_perm _), Binary64.pairwise_mergeSort _⟩

/-- Ranks beyond the end of a list are filled up. -/
theorem map_getD_range {β : Type} (x : β) (l : List β) (n : Nat) :
    (List.range n).map (fun rank => l.getD rank x) = l.take n ++ List.replicate (n - l.length) x := by
  induction l generalizing n with
  | nil => simp [List.map_const']
  | cons b l ih =>
    cases n with
    | zero => simp
    | succ n =>
      rw [List.range_succ_eq_map, List.map_cons, List.map_map, List.take_succ_cons,
        List.length_cons, Nat.succ_sub_succ, List.cons_append, ← ih]
      rfl

/-- Distances below the cutoff, followed by the cutoff, do not decrease. -/
theorem pairwise_le_append_replicate {sorted : List Float} {cutoff : Float} (n m : Nat)
    (increasing : sorted.Pairwise fun x y => Scalar.totalLe x y = true)
    (below : ∀ x ∈ sorted, Scalar.lt x cutoff = true)
    (positive : Scalar.isPositiveFinite cutoff = true) :
    (sorted.take n ++ List.replicate m cutoff).Pairwise fun x y => Scalar.le x y = true := by
  rw [Scalar.isPositiveFinite, Bool.and_eq_true] at positive
  have number : Scalar.isNumber cutoff = true := (Binary64.isNumber_of_lt positive.1).2
  rw [List.pairwise_append]
  refine ⟨?_, ?_, ?_⟩
  · refine (increasing.imp_of_mem fun hx hy h => ?_).sublist (List.take_sublist n sorted)
    exact Binary64.le_of_totalLe (Binary64.isNumber_of_lt (below _ hx)).1
      (Binary64.isNumber_of_lt (below _ hy)).1 h
  · rw [List.pairwise_replicate]
    exact .inr (Binary64.le_of_totalLe number number (Binary64.totalLe_iff.2 le_rfl))
  · intro x hx y hy
    cases List.eq_of_mem_replicate hy
    exact Binary64.le_of_lt (below x (List.mem_of_mem_take hx))

/-! ### Calculations -/

/-- The environment of number `e` has the values that the distances to its neighbors, in order, give
it. -/
structure SortedDistances.Lists (k : SortedDistances Float) (given : Descriptor Float) (e : Nat)
    (sorted : List Float) : Prop where
  /-- A feature is the distance of its rank, or the cutoff if there are not so many. -/
  value : ∀ f feature, given.features.rows[f]? = some feature →
    ∃ rank : Nat, feature = [(rank : Int)] ∧
      given.values.get? e f = some (sorted.getD rank k.cutoff)
  /-- All features together are the nearest neighbors, and the cutoff for missing ones. -/
  whole : given.features = (Kernel.sortedDistances k).featureTable → given.values.row e
    = sorted.take k.maxNeighbors ++ List.replicate (k.maxNeighbors - sorted.length) k.cutoff
  /-- They do not decrease, if the distances are below the cutoff. -/
  increasing : given.features = (Kernel.sortedDistances k).featureTable →
    (∀ x ∈ sorted, Scalar.lt x k.cutoff = true) →
      (given.values.row e).Pairwise fun x y => Scalar.le x y = true

/-- Values that were looked up by rank are those that the distances give. -/
theorem SortedDistances.lists_of_values {k : SortedDistances Float} {given : Descriptor Float}
    {e : Nat} {sorted values : List Float} (valid : (Kernel.sortedDistances k).validate = .ok ())
    (order : sorted.Pairwise fun x y => Scalar.totalLe x y = true)
    (ranks : given.features.rows ⊆ (Kernel.sortedDistances k).featureTable.rows)
    (looked_up : values
      = given.features.rows.map fun feature => sorted.getD (feature.headD 0).toNat k.cutoff)
    (row : given.values.row e = values)
    (entries : ∀ f x, values[f]? = some x → given.values.get? e f = some x) :
    k.Lists given e sorted := by
  subst looked_up
  have whole (all : given.features = (Kernel.sortedDistances k).featureTable) :
      given.values.row e
        = sorted.take k.maxNeighbors ++ List.replicate (k.maxNeighbors - sorted.length) k.cutoff := by
    rw [row, all, ← map_getD_range]
    exact List.map_map
  refine ⟨fun f feature hfeature => ?_, whole, fun all below => ?_⟩
  · obtain ⟨rank, -, rfl⟩ := List.mem_map.1 (ranks (List.mem_of_getElem? hfeature))
    refine ⟨rank, rfl, entries f _ ?_⟩
    rw [List.getElem?_map, hfeature]
    rfl
  · rw [whole all]
    exact pairwise_le_append_replicate _ _ order below (Kernel.accepted_of_validate valid)

/-- Sorted distances of systems in which no two atoms are paired twice. Every descriptor that a
calculation gives has, for each environment that was selected, the distances to all neighbors of one
species in order; and there is one where all calls are answered and the selections are valid. -/
theorem Calculator.gives_sortedDistances [AtomicSystem σ Float] {c : Calculator Float}
    {k : SortedDistances Float} (kernel : c.kernel = .sortedDistances k)
    (valid : c.kernel.validate = .ok ()) {systems : Systems σ} {accounts : Nat → Account Float}
    (kept : Keep k.cutoff systems accounts) (once : ∀ i < systems.size, (accounts i).PairsOnce)
    (workers : Workers) (samples selected : Selection) (d : Descriptor Float) :
    let environments := Account.atomSpeciesTable accounts systems.size false
    let features := (Kernel.sortedDistances k).featureTable
    (Answering k.cutoff systems accounts →
      ((∃ given, c.gives workers ⟨false, samples, selected⟩ systems d = .ok given) ↔
        samples.Valid environments ∧ selected.Valid features)) ∧
    ∀ given, c.gives workers ⟨false, samples, selected⟩ systems d = .ok given →
      samples.select "environments" environments = .ok given.environments ∧
      selected.select "features" features = .ok given.features ∧
      ∀ e environment, given.environments.rows[e]? = some environment →
        ∃ i < systems.size, ∃ center < (accounts i).size, ∃ beta : Int,
          environment = [(i : Int), (center : Int), (accounts i).speciesOf center, beta] ∧
          ∃ sorted, (accounts i).Ranks center beta sorted ∧ k.Lists given e sorted ∧
            (accounts i).ListsNeighbors center beta
              (((accounts i).pairsAround center beta).map (·.other center)) := by
  obtain ⟨_, parameters⟩ := c
  cases kernel
  refine ⟨fun answering => exists_gives_iff kept valid answering, fun given hgiven => ?_⟩
  obtain ⟨environments, features, prepared, henvironments, -, sub, hfeatures, sub', h, made⟩ :=
    given_of_accounts (c := ⟨.sortedDistances k, parameters⟩) kept valid hgiven
  have tables : given.environments = environments ∧ given.features = features := made ▸ h.tables
  have values : ((Kernel.sortedDistances k).filled accounts prepared).values = given.values :=
    made ▸ rfl
  obtain ⟨rfl, rfl⟩ := tables
  refine ⟨henvironments, hfeatures, fun e environment hrow => ?_⟩
  obtain ⟨i, hi, ⟨center, alpha, beta⟩, hcenter, rfl⟩ :=
    Account.mem_atomSpeciesTable.1 (sub (List.mem_of_getElem? hrow))
  obtain ⟨row, entries⟩ := h.values_filled hrow (List.length_map _)
  rw [values] at row entries
  have order := Account.ranks_distancesAround (once i hi) center beta
  have lists : k.Lists given e ((accounts i).distancesAround center beta) :=
    SortedDistances.lists_of_values valid order.increasing sub' rfl row entries
  rcases Account.mem_speciesCenters.1 hcenter with ⟨neighbor, joins, rfl, rfl⟩ | ⟨self, -⟩
  · exact ⟨i, hi, center, joins.lt.1, _, rfl, _, order, lists,
      Account.listsNeighbors (once i hi) _ _⟩
  · cases self

theorem pairsOnce_triangle (i : Nat) : (triangleAccounts i).PairsOnce where
  apart := (by decide : ∀ p ∈ triangle.pairs, p.first ≠ p.second)
  once := (by decide : triangle.pairs.Pairwise fun p q => s(p.first, p.second) ≠ s(q.first, q.second))

/-- The atom between two atoms of one species has the nearer one first; a third one is missing. -/
theorem gives_sortedDistances_triangle :
    let c : Calculator Float := ⟨.sortedDistances ⟨6, 3⟩, ""⟩
    ∃ given e, c.gives .inOrder .all #[triangle] .new = .ok given ∧
      given.environments.rows[e]? = some [0, 1, 2, -1] ∧ given.values.row e = [3, 5, 6] := by
  intro c
  have kept : Keep (6 : Float) #[triangle] triangleAccounts := keep_recorded sound_triangle 6
  have answering : Answering (6 : Float) #[triangle] triangleAccounts :=
    answering_recorded sound_triangle rfl 6
  have valid : c.kernel.validate = .ok () := by decide +kernel
  obtain ⟨total, right⟩ := c.gives_sortedDistances (k := ⟨6, 3⟩) rfl valid kept
    (fun i _ => pairsOnce_triangle i) .inOrder .all .all .new
  obtain ⟨given, hgiven⟩ := (total answering).2 ⟨trivial, trivial⟩
  obtain ⟨environments, features, each⟩ := right given hgiven
  have joins : (triangleAccounts 0).Joins 1 0 := ⟨⟨0, 1, ⟨3, 0, 0⟩⟩, List.mem_cons_self, .inr rfl⟩
  have there : [0, 1, 2, -1] ∈ given.environments.rows := by
    rw [← Except.ok.inj environments, Account.mem_atomSpeciesTable_iff (6 : Float)]
    exact .joined Nat.zero_lt_one joins
  obtain ⟨e, he⟩ := List.mem_iff_getElem?.1 there
  obtain ⟨i, -, center, -, beta, same, sorted, ranks, lists, -⟩ := each e _ he
  simp only [List.cons.injEq, and_true] at same
  obtain ⟨first, second, -, rfl⟩ := same
  cases Int.natCast_inj.1 first
  cases Int.natCast_inj.1 second
  have distances : ((triangleAccounts 0).pairsAround 1 (-1)).map Pair.distance = [3, 5] := by
    decide +kernel
  have nearest : sorted = [3, 5] := Binary64.eq_of_perm_of_pairwise (distances ▸ ranks.perm)
    ranks.increasing (by decide +kernel)
  refine ⟨given, e, hgiven, he, ?_⟩
  rw [lists.whole (Except.ok.inj features).symm, nearest]
  rfl

end Atomistic
