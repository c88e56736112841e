import Atomistic.Proofs.CachedNeighbors
import Atomistic.Proofs.GradientRows
import Atomistic.Proofs.KernelAnswers
import Atomistic.Proofs.SortedSets

/-!
# What kernels answer on simple systems

On simple systems a kernel has one answer, whichever of the systems were asked for their neighbors
before. The answers are given here as functions of the systems at the beginning: they do what the
kernel does, but look at each system as it is after it was asked for its neighbors.
-/

namespace Atomistic

open Traced Systems

variable {α : Type} [Scalar α] {start : Systems (SimpleSystem α)}

/-! ### Environments -/

namespace Strategy

variable {cutoff : α}

/-- The environments of the atoms of one system. -/
def atomRowsAround (start : Systems (SimpleSystem α)) (i : Nat) :
    Except Error (List (List Int)) := do
  let size ← elementAt start i >>= AtomicSystem.size
  return (List.range size).map fun (center : Nat) => [(i : Int), center]

theorem settles_atomRows (i : Nat) : Settles (Warmed cutoff start []) (atomRows i)
    (atomRowsAround start i) (Warmed cutoff start []) :=
  settles_bind (settles_ask fun _ _ => rfl) fun _ _ => settles_pure _

/-- The environments of the atoms of one system with the species around them. -/
def atomSpeciesRowsAround (cutoff : α) (includesSelf : Bool) (start : Systems (SimpleSystem α))
    (i : Nat) : Except Error (List (List Int)) := do
  let s ← around cutoff start i
  let species ← AtomicSystem.species s
  let pairs ← AtomicSystem.pairs s
  let seen ← orientedPairs species pairs
  let all := if includesSelf then seen.map (·.1) ++ ownEnvironments species else seen.map (·.1)
  return all.map fun (center, alpha, beta) => [(i : Int), center, alpha, beta]

theorem settles_atomSpeciesRows (includesSelf : Bool) (i : Nat) :
    Settles (Warmed cutoff start []) (atomSpeciesRows cutoff includesSelf i)
      (atomSpeciesRowsAround cutoff includesSelf start i) (Warmed cutoff start []) := by
  refine settles_computeNeighbors_bind fun s hs => ?_
  refine settles_bind (settles_ask_around List.mem_cons_self hs) fun species _ => ?_
  refine settles_bind (settles_ask_around List.mem_cons_self hs) fun pairs _ => ?_
  exact settles_bind (settles_ofExcept _) fun seen _ => settles_pure _

/-- The rows of all systems. -/
def rowsOfAllAround (start : Systems (SimpleSystem α))
    (rows : Nat → Except Error (List (List Int))) : Except Error (List (List Int)) := do
  return (← (List.range start.size).mapM rows).flatten

theorem settles_rowsOfAll {rows : Nat → Traced (Systems (SimpleSystem α)) (List (List Int))}
    {x : Nat → Except Error (List (List Int))}
    (h : ∀ i, Settles (Warmed cutoff start []) (rows i) (x i) (Warmed cutoff start [])) :
    Settles (Warmed cutoff start []) (rowsOfAll rows) (rowsOfAllAround start x)
      (Warmed cutoff start []) :=
  settles_bind settles_numbers fun _ _ => settles_bind (settles_mapM h _) fun _ _ => settles_pure _

/-- The gradient rows of some environments that are in one system. -/
def atomGradientsAround (cutoff : α) (start : Systems (SimpleSystem α)) (environments : Labels)
    (system : Int) : Except Error (List (List Int)) := do
  let i ← positionOfLabel system
  let s ← around cutoff start i
  let here := environments.rows.filter fun row => row.head? == some system
  let centers ← here.mapM (positionAt · 1)
  let pairs ← AtomicSystem.pairs s
  let seen := pairs.flatMap fun p => [p.atoms, (p.second, p.first)]
  return (seen.filter fun (center, _) => centers.contains center).map
    fun (center, neighbor) => [system, center, neighbor]

theorem settles_atomGradients (environments : Labels) (system : Int) :
    Settles (Warmed cutoff start []) (atomGradients cutoff environments system)
      (atomGradientsAround cutoff start environments system) (Warmed cutoff start []) := by
  refine settles_bind (settles_ofExcept _) fun i _ => settles_computeNeighbors_bind fun s hs => ?_
  refine settles_bind (settles_ofExcept _) fun centers _ => ?_
  exact settles_bind (settles_ask_around List.mem_cons_self hs) fun pairs _ => settles_pure _

/-- The gradient rows of some environments, without their directions. -/
def gradientRowsAround (cutoff : α) (start : Systems (SimpleSystem α)) (environments : Labels) :
    Except Error (List (List Int)) := do
  let systems ← requestedSystems environments
  return sortedRows (← systems.mapM (atomGradientsAround cutoff start environments)).flatten

/-- The table of the gradient rows of some environments. -/
def gradientTableAround (cutoff : α) (start : Systems (SimpleSystem α)) (environments : Labels) :
    Except Error (Option Labels) := do
  let rows ← gradientRowsAround cutoff start environments
  let rows ← rows.mapM checkRow
  return some (← Labels.ofRows (atoms cutoff).gradientNames (rows.flatMap spatialRows))

theorem settles_gradientsFor_atoms (environments : Labels) :
    Settles (Warmed cutoff start []) ((atoms cutoff).gradientsFor environments)
      (gradientTableAround cutoff start environments) (Warmed cutoff start []) := by
  refine settles_bind ?_ fun rows _ => settles_ofExcept _
  refine settles_bind (settles_ofExcept _) fun systems _ => ?_
  exact settles_bind (settles_mapM (settles_atomGradients environments) _) fun _ _ => settles_pure _

end Strategy

namespace Kernel

/-- The distance up to which a kernel looks for neighbors. -/
def cutoff : Kernel α → α
  | sortedDistances k => k.cutoff
  | dummy k => k.cutoff

/-- All environments of the systems. -/
def environmentsAround (k : Kernel α) (start : Systems (SimpleSystem α)) : Except Error Labels :=
  match k with
  | sortedDistances l => do
    let rows ← Strategy.rowsOfAllAround start (Strategy.atomSpeciesRowsAround l.cutoff false start)
    Labels.ofRows k.strategy.names (← (sortedRows rows).mapM checkRow)
  | dummy _ => do
    let rows ← Strategy.rowsOfAllAround start (Strategy.atomRowsAround start)
    Labels.ofRows k.strategy.names (← rows.mapM checkRow)

theorem settles_environments (k : Kernel α) : Settles (Warmed k.cutoff start [])
    k.strategy.environments (k.environmentsAround start) (Warmed k.cutoff start []) := by
  cases k with
  | sortedDistances k =>
    exact settles_bind (Strategy.settles_rowsOfAll (Strategy.settles_atomSpeciesRows false))
      fun _ _ => settles_ofExcept _
  | dummy k =>
    exact settles_bind (Strategy.settles_rowsOfAll Strategy.settles_atomRows)
      fun _ _ => settles_ofExcept _

theorem names_environmentsAround {k : Kernel α} {environments : Labels}
    (h : k.environmentsAround start = .ok environments) :
    environments.names = k.strategy.names := by
  cases k with
  | sortedDistances k =>
    obtain ⟨rows, -, h⟩ := except_bind_eq_ok.1 h
    obtain ⟨checked, -, h⟩ := except_bind_eq_ok.1 h
    exact (Labels.ofRows_eq_ok.1 h).1
  | dummy k =>
    obtain ⟨rows, -, h⟩ := except_bind_eq_ok.1 h
    obtain ⟨checked, -, h⟩ := except_bind_eq_ok.1 h
    exact (Labels.ofRows_eq_ok.1 h).1

end Kernel

/-! ### Values -/

namespace SortedDistances

/-- The distances in one system. -/
def shellsAround (k : SortedDistances α) (start : Systems (SimpleSystem α)) (i : Nat) :
    Except Error (Shells α) := do
  let s ← around k.cutoff start i
  let species ← AtomicSystem.species s
  let pairs ← AtomicSystem.pairs s
  return Shells.gather (← Shells.orientedDistances species pairs)

variable {k : SortedDistances α}

theorem settles_shells (i : Nat) : Settles (Warmed k.cutoff start []) (k.shells i)
    (k.shellsAround start i) (Warmed k.cutoff start []) := by
  refine settles_computeNeighbors_bind fun s hs => ?_
  refine settles_bind (settles_ask_around List.mem_cons_self hs) fun species _ => ?_
  refine settles_bind (settles_ask_around List.mem_cons_self hs) fun pairs _ => ?_
  exact settles_bind (settles_ofExcept _) fun _ _ => settles_pure _

/-- The values of all environments. -/
def valuesAround (k : SortedDistances α) (start : Systems (SimpleSystem α))
    (environments features : Labels) : Except Error (List (List α)) := do
  let systems ← requestedSystems environments
  let systems ← systems.mapM positionOfLabel
  let shells ← systems.mapM fun i => return (i, ← k.shellsAround start i)
  environments.rows.mapM (k.row (Std.HashMap.ofList shells) features)

theorem settles_values (environments features : Labels) :
    Settles (Warmed k.cutoff start []) (k.values environments features)
      (k.valuesAround start environments features) (Warmed k.cutoff start []) := by
  refine settles_within ?_
  refine settles_bind (settles_ofExcept _) fun _ _ => ?_
  refine settles_bind (settles_ofExcept _) fun _ _ => ?_
  refine settles_bind (settles_mapM (fun i => ?_) _) fun _ _ => settles_ofExcept _
  exact settles_bind (settles_shells i) fun _ _ => settles_pure _

end SortedDistances

namespace DummyKernel

/-- The values of an environment. -/
def rowAround (k : DummyKernel α) (start : Systems (SimpleSystem α)) (features : List DummyFeature)
    (environment : List Int) : Except Error (List α) := do
  let s ← around k.cutoff start (← positionAt environment 0)
  let center ← positionAt environment 1
  features.mapM (k.value s center)

/-- What the columns hold, and the values of all environments. -/
def valuesAround (k : DummyKernel α) (workers : Workers) (start : Systems (SimpleSystem α))
    (environments features : Labels) : Except Error (List DummyFeature × List (List α)) := do
  let features ← features.rows.mapM DummyFeature.ofRow
  let systems ← requestedSystems environments
  let systems ← systems.mapM positionOfLabel
  systems.forM fun i => (around k.cutoff start i).map fun _ => ()
  return (features, ← workers.all (environments.rows.map (k.rowAround start features)))

variable {k : DummyKernel α} {workers : Workers}

/-- With any workers the values are the same. -/
theorem valuesAround_of_ok (workers' : Workers) {environments features : Labels}
    {found : List DummyFeature × List (List α)}
    (h : k.valuesAround workers start environments features = .ok found) :
    k.valuesAround workers' start environments features = .ok found := by
  simp only [valuesAround, except_bind_eq_ok, Workers.all_eq_ok] at h ⊢
  exact h

/-- When the systems of the environments were asked for their neighbors, the values are those that
the kernel computes from them. -/
theorem rowValues_eq {environments : Labels} {labels : List Int} {systems : List Nat}
    (hlabels : requestedSystems environments = .ok labels)
    (hsystems : labels.mapM positionOfLabel = .ok systems) {features : List DummyFeature}
    {v : Systems (SimpleSystem α)} (hv : Warmed k.cutoff start (systems ++ []) v) {row : List Int}
    (hrow : row ∈ environments.rows) :
    k.rowValues v features row = k.rowAround start features row := by
  rw [rowValues, rowAround, centerOf]
  cases hi : positionAt row 0 with
  | error e => rfl
  | ok i =>
    obtain ⟨label, hlabel, hposition⟩ := except_bind_eq_ok.1 hi
    have wanted := (mem_of_requestedSystems hlabels).2 ⟨row, hrow, hlabel⟩
    have asked : i ∈ systems ++ [] :=
      List.mem_append_left _ ((mem_of_mapM_eq_ok hsystems).2 ⟨_, wanted, hposition⟩)
    simp only [bind_assoc, pure_bind]
    change (elementAt v i >>= _) = (around k.cutoff start i >>= _)
    rw [hv.asked i asked]

theorem settles_rows {environments : Labels} {labels : List Int} {systems : List Nat}
    (hlabels : requestedSystems environments = .ok labels)
    (hsystems : labels.mapM positionOfLabel = .ok systems) (features : List DummyFeature) :
    Settles (Warmed k.cutoff start (systems ++ []))
      (Traced.ask fun systems => workers.all (environments.rows.map (k.rowValues systems features)))
      (workers.all (environments.rows.map (k.rowAround start features)))
      (Warmed k.cutoff start []) := by
  intro v hv
  refine ensures_ask ⟨congrArg workers.all ?_, fun _ _ => hv.of_subset (List.nil_subset _)⟩
  exact List.map_congr_left fun row hrow => rowValues_eq hlabels hsystems hv hrow

theorem settles_allValues (environments features : Labels) :
    Settles (Warmed k.cutoff start []) (k.allValues workers environments features)
      (k.valuesAround workers start environments features) (Warmed k.cutoff start []) := by
  have main : Settles (Warmed k.cutoff start []) (do
      let features ← Traced.ofExcept (features.rows.mapM DummyFeature.ofRow)
      let systems ← Traced.ofExcept (requestedSystems environments)
      let systems ← Traced.ofExcept (systems.mapM positionOfLabel)
      systems.forM (Systems.computeNeighbors k.cutoff)
      return (features, ← Traced.ask fun systems =>
        workers.all (environments.rows.map (k.rowValues systems features))))
      (k.valuesAround workers start environments features) (Warmed k.cutoff start []) := by
    refine settles_bind (settles_ofExcept _) fun features _ => ?_
    refine settles_bind (settles_ofExcept _) fun labels hlabels => ?_
    refine settles_bind (settles_ofExcept _) fun systems hsystems => ?_
    refine settles_bind (settles_forM_computeNeighbors systems []) fun _ _ => ?_
    exact settles_bind (settles_rows hlabels hsystems features) fun _ _ => settles_pure _
  refine settles_within ?_
  unfold survey
  cases k.announcement? with
  | none =>
    simp only [bind_assoc, pure_bind]
    exact main
  | some level =>
    simp only [bind_assoc, pure_bind]
    exact settles_log_bind main

end DummyKernel

end Atomistic
