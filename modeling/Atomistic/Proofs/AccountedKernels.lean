import Atomistic.Proofs.AccountedEnvironments
import Atomistic.Proofs.SettledKernels

/-!
# Kernels on systems that keep their contract

A kernel that is given environments of atoms that are there finds all that it looks for: the systems
and the atoms by their numbers, the species and positions of the atoms in pairs, and what a column
is about by its labels. So it fills the descriptor, unless a call fails, with values that the accounts
of the systems decide; and the calls that it makes are known.
-/

namespace Atomistic

open Traced Systems

variable {σ α β γ : Type} [Scalar α] [AtomicSystem σ α] {start : Systems σ}
  {accounts : Nat → Account α} {counts : Nat → Nat} {n : Nat} {environments features : Labels}

/-! ### Sorted distances -/

namespace Account

/-- The distance of each pair, seen from both atoms. -/
def orientedDistances (a : Account α) : List ((Nat × Int) × α) :=
  a.pairs.flatMap fun p =>
    [((p.first, a.speciesOf p.second), p.distance), ((p.second, a.speciesOf p.first), p.distance)]

theorem orientedDistances_eq (a : Account α) :
    Shells.orientedDistances a.species a.pairs = .ok a.orientedDistances := by
  rw [Shells.orientedDistances, orientedDistances, List.flatMap_def, except_mapM_eq_map]
  · rfl
  · intro p hp
    obtain ⟨first, second⟩ := a.pairs_lt p hp
    rw [elementAt_species first, elementAt_species second]
    rfl

/-- The distances around an atom to neighbors of a species, in increasing order. -/
def distancesAround (a : Account α) (center : Nat) (species : Int) : List α :=
  (Shells.gather a.orientedDistances).sorted center species

end Account

namespace SortedDistances

variable {k : SortedDistances α}

/-- The values of an environment. -/
def valuesOf (k : SortedDistances α) (accounts : Nat → Account α) (features : Labels) :
    List Int → List α
  | [i, center, _, beta] =>
    let distances := (accounts i.toNat).distancesAround center.toNat beta
    features.rows.map fun feature => distances.getD (feature.headD 0).toNat k.cutoff
  | _ => []

theorem relies_shells (kept : Keep k.cutoff start accounts) {i : Nat} (there : i < start.size)
    (now : counts i = n) :
    Relies (Ends k.cutoff start) (visit i n {.species, .pairs}) (Reached k.cutoff start counts)
      (k.shells i) (· = Shells.gather (accounts i).orientedDistances)
      (Reached k.cutoff start (raise counts [i])) := by
  refine relies_visit there now fun counts now => ?_
  rw [Set.image_pair]
  refine relies_bind (relies_species kept there now) ?_
  rintro _ rfl
  refine relies_bind_free (relies_pairs kept there now) ?_
  rintro _ rfl
  exact relies_of_ok_bind (accounts i).orientedDistances_eq (relies_pure rfl)

omit [Scalar α] in
/-- What was found for a system is found again by its number. -/
theorem getD_ofList_map {g : Nat → Shells α} {systems : List Nat} (distinct : systems.Nodup) {i : Nat}
    (there : i ∈ systems) : (Std.HashMap.ofList (systems.map fun i => (i, g i))).getD i ∅ = g i := by
  refine Std.HashMap.getD_ofList_of_mem (beq_self_eq_true i) ?_ (List.mem_map_of_mem there)
  rw [List.pairwise_map]
  exact distinct.imp fun differ => beq_false_of_ne differ

/-- Environments of atoms with species have values, which are found by rank. -/
theorem row_eq {shells : Std.HashMap Nat (Shells α)} {i center : Nat} {alpha beta : Int}
    (found : shells.getD i ∅ = Shells.gather (accounts i).orientedDistances)
    (ranks : ∀ feature ∈ features.rows, ∃ rank : Nat, feature = [(rank : Int)]) :
    k.row shells features [(i : Int), (center : Int), alpha, beta]
      = .ok (k.valuesOf accounts features [(i : Int), (center : Int), alpha, beta]) := by
  refine except_bind_eq_ok.2 ⟨i, positionAt_eq_ok.2 rfl, except_bind_eq_ok.2
    ⟨center, positionAt_eq_ok.2 rfl, except_bind_eq_ok.2 ⟨beta, rfl, except_mapM_eq_map ?_⟩⟩⟩
  intro feature hfeature
  obtain ⟨rank, rfl⟩ := ranks feature hfeature
  rw [positionAt_eq_ok.2 (rfl : [(rank : Int)][0]? = some (rank : Int)), found]
  refine congrArg Except.ok ?_
  rw [Array.getD_eq_getD_getElem?, List.getElem?_toArray, ← List.getD_eq_getElem?_getD]
  rfl

theorem relies_values (kept : Keep k.cutoff start accounts)
    (sub : environments.rows ⊆ (Account.atomSpeciesTable accounts start.size false).rows)
    (ranks : ∀ feature ∈ features.rows, ∃ rank : Nat, feature = [(rank : Int)])
    (now : ∀ i ∈ environments.systems, counts i = n) :
    Relies (Ends k.cutoff start) (⋃ i ∈ environments.systems, visit i n {.species, .pairs})
      (Reached k.cutoff start counts) (k.values environments features)
      (· = environments.rows.map (k.valuesOf accounts features))
      (Reached k.cutoff start (raise counts environments.systems)) := by
  have within := Labels.within_of_subset_atomSpeciesTable sub
  have numbered (i : Nat) (hi : i ∈ environments.systems) (counts : Nat → Nat)
      (now : counts i = n) : Relies (Ends k.cutoff start) (visit i n {.species, .pairs})
        (Reached k.cutoff start counts) (do return (i, ← k.shells i))
        (· = (i, Shells.gather (accounts i).orientedDistances))
        (Reached k.cutoff start (raise counts [i])) :=
    relies_map (relies_shells kept (within.lt_of_mem_systems hi) now)
      fun _ found => congrArg (i, ·) found
  refine relies_within (relies_of_ok_bind within.requestedSystems_eq
    (relies_of_ok_bind (mapM_positionOfLabel environments.systems) (relies_bind_free
      (relies_mapM_visits within.nodup_systems now numbered) fun shells each => ?_)))
  cases eq_map_of_forall₂ each
  refine relies_ofExcept (except_mapM_eq_map fun environment henvironment => ?_) rfl
  obtain ⟨i, -, center, -, rfl⟩ := Account.mem_atomSpeciesTable.1 (sub henvironment)
  have requested : i ∈ environments.systems := within.mem_systems.2 ⟨_, henvironment, rfl⟩
  exact row_eq (getD_ofList_map within.nodup_systems requested) ranks

end SortedDistances

/-! ### The kernel for tests -/

namespace DummyFeature

/-- The calls that the sum of the coordinates around an atom needs. -/
def sumCalls (round : Nat) (environment : List Int) : Set SystemCall :=
  {call | call.round = round ∧ ∃ center : Nat, environment[0]? = some (call.system : Int) ∧
    environment[1]? = some (center : Int) ∧
      (call.question = .positions ∨ call.question = .pairsContaining center)}

theorem sumCalls_eq {environment : List Int} {i center : Nat}
    (first : environment[0]? = some (i : Int)) (second : environment[1]? = some (center : Int)) :
    sumCalls n environment = {⟨i, n, .positions⟩, ⟨i, n, .pairsContaining center⟩} := by
  ext ⟨j, round, q⟩
  constructor
  · rintro ⟨rfl, center', there, here, asked⟩
    cases Int.natCast_inj.1 (Option.some.inj (first.symm.trans there))
    cases Int.natCast_inj.1 (Option.some.inj (second.symm.trans here))
    rcases asked with rfl | rfl
    · exact .inl rfl
    · exact .inr rfl
  · rintro (same | same)
    · cases same
      exact ⟨rfl, center, first, second, .inl rfl⟩
    · cases same
      exact ⟨rfl, center, first, second, .inr rfl⟩

/-- The calls that a column needs for an environment. -/
def calls (round : Nat) (environment : List Int) : DummyFeature → Set SystemCall
  | indexDelta => ∅
  | coordinateSum => sumCalls round environment

theorem mem_calls {environment : List Int} {call : SystemCall} {f : DummyFeature} :
    call ∈ f.calls n environment ↔ f = coordinateSum ∧ call ∈ sumCalls n environment := by
  cases f <;> simp [calls]

/-- What the columns hold. -/
def columns (features : Labels) : List DummyFeature :=
  features.rows.map fun row => if row = [0, 1] then coordinateSum else indexDelta

/-- The labels of columns say what they hold. -/
theorem mapM_ofRow_eq (sub : features.rows ⊆ [[1, 0], [0, 1]]) :
    features.rows.mapM ofRow = .ok (columns features) := by
  refine except_mapM_eq_map fun row hrow => ?_
  rcases List.mem_pair.1 (sub hrow) with rfl | rfl <;> rfl

theorem coordinateSum_mem_columns : coordinateSum ∈ columns features ↔ [0, 1] ∈ features.rows := by
  rw [columns, List.mem_map]
  constructor
  · rintro ⟨row, hrow, h⟩
    split at h
    · next same => exact same ▸ hrow
    · cases h
  · exact fun hrow => ⟨_, hrow, if_pos rfl⟩

end DummyFeature

omit [Scalar α] in
theorem Pair.other_lt {p : Pair α} {size : Nat} (h : p.first < size ∧ p.second < size) (atom : Nat) :
    p.other atom < size := by
  rw [Pair.other]
  split
  · exact h.2
  · exact h.1

theorem foldlM_eq_foldl {f : γ → β → Except Error γ} {g : γ → β → γ} {xs : List β}
    (h : ∀ x ∈ xs, ∀ c, f c x = .ok (g c x)) (c : γ) : xs.foldlM f c = .ok (xs.foldl g c) := by
  induction xs generalizing c with
  | nil => rfl
  | cons x xs ih =>
    rw [List.forall_mem_cons] at h
    rw [List.foldlM_cons, h.1]
    exact ih h.2 (g c x)

namespace Account

/-- The position of an atom. -/
def positionOf (a : Account α) (atom : Nat) : Vector3 α :=
  a.positions.getD atom ⟨Scalar.zero, Scalar.zero, Scalar.zero⟩

theorem elementAt_positions {a : Account α} {atom : Nat} (there : atom < a.size) :
    elementAt a.positions atom = .ok (a.positionOf atom) := by
  rw [← a.size_positions] at there
  rw [elementAt_of_some (Array.getElem?_eq_getElem there), positionOf, Array.getD_eq_getD_getElem?,
    Array.getElem?_eq_getElem there]
  rfl

/-- The coordinates of an atom and of its neighbors, summed up. -/
def coordinateSum (a : Account α) (center : Nat) : α :=
  (a.pairsContaining center).foldl
    (fun sum p => sum + DummyKernel.total (a.positionOf (p.other center)))
    (DummyKernel.total (a.positionOf center))

end Account

/-- Workers are given the right answers for all rows, or the error of a call for one of them. -/
theorem Workers.rests_all {κ ι : Type} {ends : κ → Except Error Unit → Prop} {of : ι → Set κ}
    {r : ι → β → Prop} {f : ι → Except Error β} {items : List ι} (workers : Workers)
    (h : ∀ i ∈ items, Rests ends (of i) (r i) (f i)) :
    Rests ends (⋃ i ∈ items, of i) (List.Forall₂ r items) (workers.all (items.map f)) := by
  cases outcome : workers.all (items.map f) with
  | ok answers =>
    rw [← Workers.all_map_eq_ok.1 outcome]
    exact rests_mapM h
  | error e =>
    obtain ⟨i, hi, failed⟩ := List.mem_map.1 (Workers.mem_of_all_eq_error outcome)
    have rests := h i hi
    rw [failed] at rests
    cases rests with
    | failure made failed => exact .failure (Set.mem_biUnion hi made) failed

namespace DummyKernel

variable {k : DummyKernel α} {workers : Workers}

/-- What a column holds for an atom. -/
def valueOf (k : DummyKernel α) (a : Account α) (center : Nat) : DummyFeature → α
  | .indexDelta => Scalar.ofNat center + Scalar.ofInt k.delta
  | .coordinateSum => a.coordinateSum center

/-- The values of an environment. -/
def valuesOf (k : DummyKernel α) (accounts : Nat → Account α) (features : Labels) :
    List Int → List α
  | [i, center] => (DummyFeature.columns features).map (k.valueOf (accounts i.toNat) center.toNat)
  | _ => []

variable (kept : Keep k.cutoff start accounts)

include kept

/-- The coordinates around an atom that is there are summed up. -/
theorem rests_sumAround {i center : Nat} {s w : σ} (hs : start[i]? = some s)
    (now : Reaches k.cutoff s (n + 1) w) (there : center < (accounts i).size) :
    Rests (Ends k.cutoff start) {⟨i, n + 1, .positions⟩, ⟨i, n + 1, .pairsContaining center⟩}
      (· = (accounts i).coordinateSum center) (sumAround w center) := by
  have account := kept.each i s hs
  refine rests_bind (rests_call ⟨s, hs, .positions now⟩ fun _ => account.positions now) ?_
  rintro _ rfl
  refine rests_of_ok_bind (Account.elementAt_positions there) ?_
  refine rests_bind_free (rests_call ⟨s, hs, .pairsContaining now⟩
    fun _ => account.pairsContaining now there) ?_
  rintro _ rfl
  rw [foldlM_eq_foldl (g := fun sum p =>
    sum + total ((accounts i).positionOf (p.other center))) fun p hp sum => ?_]
  · exact rests_ok rfl
  · have within := (accounts i).pairsContaining_lt center there p hp
    rw [Account.elementAt_positions (Pair.other_lt within center)]
    rfl

theorem rests_rowValues {i center : Nat} {v : Systems σ} {s w : σ} (hs : start[i]? = some s)
    (hw : v[i]? = some w) (now : Reaches k.cutoff s (n + 1) w)
    (there : center < (accounts i).size) :
    Rests (Ends k.cutoff start)
      (⋃ f ∈ DummyFeature.columns features, f.calls (n + 1) [(i : Int), (center : Int)])
      (· = k.valuesOf accounts features [(i : Int), (center : Int)])
      (k.rowValues v (DummyFeature.columns features) [(i : Int), (center : Int)]) := by
  have found : centerOf v [(i : Int), (center : Int)] = .ok (w, center) := by
    refine except_bind_eq_ok.2 ⟨i, positionAt_eq_ok.2 rfl, ?_⟩
    refine except_bind_eq_ok.2 ⟨w, elementAt_of_some hw, ?_⟩
    exact except_bind_eq_ok.2 ⟨center, positionAt_eq_ok.2 rfl, rfl⟩
  refine rests_of_ok_bind found ?_
  refine (rests_mapM (r := fun f value => value = k.valueOf (accounts i) center f)
    fun f _ => ?_).imp fun _ each => eq_map_of_forall₂ each
  cases f with
  | indexDelta => exact rests_ok rfl
  | coordinateSum =>
    rw [DummyFeature.calls, DummyFeature.sumCalls_eq rfl rfl]
    exact rests_sumAround kept hs now there

/-- The calls that the values of some environments need, once their systems have their neighbors. -/
def sumCalls (round : Nat) (environments features : Labels) : Set SystemCall :=
  {call | [0, 1] ∈ features.rows ∧
    ∃ environment ∈ environments.rows, call ∈ DummyFeature.sumCalls round environment}

omit [Scalar α] [AtomicSystem σ α] kept in
/-- Sums are asked for where a column holds them. -/
theorem biUnion_calls : (⋃ environment ∈ environments.rows,
      ⋃ f ∈ DummyFeature.columns features, f.calls n environment)
      = sumCalls n environments features := by
  ext call
  simp only [Set.mem_iUnion, DummyFeature.mem_calls, exists_prop, sumCalls, Set.mem_ofPred_eq,
    ← DummyFeature.coordinateSum_mem_columns]
  constructor
  · rintro ⟨environment, henvironment, _, hf, rfl, hcall⟩
    exact ⟨hf, environment, henvironment, hcall⟩
  · rintro ⟨hf, environment, henvironment, hcall⟩
    exact ⟨environment, henvironment, _, hf, rfl, hcall⟩

/-- Systems that have their neighbors are asked what the columns need. -/
theorem relies_rows (sub : environments.rows ⊆ (Account.atomTable accounts start.size).rows)
    (now : ∀ i ∈ environments.systems, counts i = n + 1) :
    Relies (Ends k.cutoff start) (sumCalls (n + 1) environments features)
      (Reached k.cutoff start counts)
      (Traced.ask fun systems => workers.all
        (environments.rows.map (k.rowValues systems (DummyFeature.columns features))))
      (· = environments.rows.map (k.valuesOf accounts features))
      (Reached k.cutoff start counts) := by
  have within := Labels.within_of_subset_atomTable sub
  rw [← biUnion_calls]
  refine Traced.relies_ask fun v hv => (workers.rests_all
    (r := fun environment values => values = k.valuesOf accounts features environment)
    fun environment henvironment => ?_).imp fun _ each => eq_map_of_forall₂ each
  obtain ⟨i, hi, center, hcenter, rfl⟩ := Account.mem_atomTable.1 (sub henvironment)
  obtain ⟨s, w, hs, hw, reaches⟩ := hv.exists_getElem? hi
  rw [now i (within.mem_systems.2 ⟨_, henvironment, rfl⟩)] at reaches
  exact rests_rowValues kept hs hw reaches hcenter

theorem relies_allValues (sub : environments.rows ⊆ (Account.atomTable accounts start.size).rows)
    (sub' : features.rows ⊆ [[1, 0], [0, 1]]) (now : ∀ i ∈ environments.systems, counts i = n) :
    Relies (Ends k.cutoff start)
      ((⋃ i ∈ environments.systems, {⟨i, n, .neighbors⟩}) ∪ sumCalls (n + 1) environments features)
      (Reached k.cutoff start counts) (k.allValues workers environments features)
      (· = (DummyFeature.columns features, environments.rows.map (k.valuesOf accounts features)))
      (Reached k.cutoff start (raise counts environments.systems)) := by
  have within := Labels.within_of_subset_atomTable sub
  have rest : Relies (Ends k.cutoff start)
      ((⋃ i ∈ environments.systems, {⟨i, n, .neighbors⟩}) ∪ sumCalls (n + 1) environments features)
      (Reached k.cutoff start counts) (do
        let fs ← Traced.ofExcept (features.rows.mapM DummyFeature.ofRow)
        let systems ← Traced.ofExcept (requestedSystems environments)
        let systems ← Traced.ofExcept (systems.mapM positionOfLabel)
        systems.forM (Systems.computeNeighbors k.cutoff)
        return (fs, ← Traced.ask fun systems =>
          workers.all (environments.rows.map (k.rowValues systems fs))))
      (· = (DummyFeature.columns features, environments.rows.map (k.valuesOf accounts features)))
      (Reached k.cutoff start (raise counts environments.systems)) := by
    refine relies_of_ok_bind (DummyFeature.mapM_ofRow_eq sub')
      (relies_of_ok_bind within.requestedSystems_eq
      (relies_of_ok_bind (mapM_positionOfLabel environments.systems) (relies_bind
        (relies_forM_computeNeighbors within.nodup_systems (fun _ => within.lt_of_mem_systems) now)
        fun _ _ => ?_)))
    refine relies_map (relies_rows kept sub fun i hi => ?_)
      fun _ found => congrArg (DummyFeature.columns features, ·) found
    exact (raise_of_mem hi).trans (congrArg (· + 1) (now i hi))
  refine relies_within ?_
  unfold survey
  cases k.announcement? with
  | none =>
    simp only [bind_assoc, pure_bind]
    exact rest
  | some level =>
    simp only [bind_assoc, pure_bind]
    exact relies_log_bind rest

end DummyKernel

end Atomistic
