import Std.Data.HashMap
import Atomistic.Descriptor
import Atomistic.Environments
import Atomistic.Json.Schema

/-!
# Sorted distances

A kernel that describes an atom by the distances to its neighbors of one species, from the nearest
to the farthest. The first `maxNeighbors` of them are features; atoms with fewer neighbors have the
cutoff in the place of the missing ones.
-/

namespace Atomistic

/-- The distances around each atom of a system, by the species of the neighbor. -/
abbrev Shells (α : Type) := Std.HashMap (Nat × Int) (List α)

namespace Shells

variable {α : Type} [Scalar α]

/-- The distance of each pair, seen from both atoms: an atom and the species of the other one. -/
def orientedDistances (species : Array Int) (pairs : List (Pair α)) :
    Except Error (List ((Nat × Int) × α)) := do
  let both ← pairs.mapM fun p => do
    let second ← elementAt species p.second
    let first ← elementAt species p.first
    return [((p.first, second), p.distance), ((p.second, first), p.distance)]
  return both.flatten

/-- Gather distances that have the same atom and species. -/
def gather (distances : List ((Nat × Int) × α)) : Shells α :=
  distances.foldl (fun shells (key, d) => shells.insert key (d :: shells.getD key [])) ∅

/-- The distances around an atom to neighbors of a species, in increasing order. -/
def sorted (s : Shells α) (center : Nat) (species : Int) : List α :=
  (s.getD (center, species) []).mergeSort Scalar.totalLe

end Shells

/-- The kernel of sorted distances. -/
structure SortedDistances (α : Type) where
  cutoff : α
  maxNeighbors : Nat
  deriving DecidableEq, Repr

namespace SortedDistances

/-- How parameters are written. -/
def schema : Json.Schema where
  name := "SortedDistances"
  fields := [("cutoff", .number), ("max_neighbors", .natural)]

/-- The kernel with the parameters in a JSON text. -/
def parse (text : String) : Except Json.Fault (SortedDistances Float) := do
  let row ← schema.parse text
  return ⟨row ⟨0, by decide⟩, row ⟨1, by decide⟩⟩

variable {σ α : Type}

/-- The features: the rank of a neighbor. -/
def features (k : SortedDistances α) : Except Error Labels := do
  Labels.ofRows ["neighbor"] (← (List.range k.maxNeighbors).mapM fun i => return [← labelOfNat i])

/-- The values of an environment. -/
def row [Scalar α] (k : SortedDistances α) (shells : Std.HashMap Nat (Shells α)) (features : Labels)
    (environment : List Int) : Except Error (List α) := do
  let system ← positionAt environment 0
  let center ← positionAt environment 1
  let species ← labelAt environment 3
  let distances := ((shells.getD system ∅).sorted center species).toArray
  features.rows.mapM fun feature => return distances.getD (← positionAt feature 0) k.cutoff

variable [Scalar α] [AtomicSystem σ α]

/-- The distances in the system of number `i`. -/
def shells (k : SortedDistances α) (i : Nat) : Traced (Systems σ) (Shells α) := do
  Systems.computeNeighbors k.cutoff i
  let species ← Systems.ask i AtomicSystem.species
  let pairs ← Systems.ask i AtomicSystem.pairs
  return Shells.gather (← Traced.ofExcept (Shells.orientedDistances species pairs))

/-- The values of all environments. -/
def values (k : SortedDistances α) (environments features : Labels) :
    Traced (Systems σ) (List (List α)) :=
  Traced.within .sortedDistances do
    let systems ← Traced.ofExcept (requestedSystems environments)
    let systems ← Traced.ofExcept (systems.mapM positionOfLabel)
    let shells ← systems.mapM fun i => return (i, ← k.shells i)
    Traced.ofExcept (environments.rows.mapM (k.row (Std.HashMap.ofList shells) features))

end SortedDistances

end Atomistic
