import Atomistic.AtomicSystem
import Atomistic.Neighbors.NeighborsList

/-!
# Simple systems

A system made of its own data. It keeps the neighbor list that was computed last, uses it again for
the same cutoff, and forgets it when an atom is added. A copy of another system starts without one.
The systems here belong to a build that checks its sums: where a sum in the search for neighbors
overflows, computing neighbors fails.
-/

namespace Atomistic

/-- A system that stores its atoms. -/
structure SimpleSystem (α : Type) where
  cell : UnitCell α
  species : Array Int
  positions : Array (Vector3 α)
  neighbors : Option (NeighborsList α)
  deriving DecidableEq

namespace SimpleSystem

variable {α : Type}

/-- A system without atoms in the given cell. -/
def new (cell : UnitCell α) : SimpleSystem α := ⟨cell, #[], #[], none⟩

/-- Add an atom. The neighbor list, if there was one, is not valid for it. -/
def addAtom (s : SimpleSystem α) (species : Int) (position : Vector3 α) : SimpleSystem α :=
  { s with
    species := s.species.push species
    positions := s.positions.push position
    neighbors := none }

/-- The system with the given atoms. -/
def ofAtoms (cell : UnitCell α) (atoms : List (Int × Vector3 α)) : SimpleSystem α :=
  atoms.foldl (fun s (species, position) => s.addAtom species position) (new cell)

/-- The neighbor list that was computed last. -/
def currentNeighbors (s : SimpleSystem α) : Except Error (NeighborsList α) :=
  match s.neighbors with
  | some n => .ok n
  | none => .error (.parameter .neighborsNotComputed)

/-- The pairs of the current neighbor list that contain an atom. -/
def pairsContaining (s : SimpleSystem α) (atom : Nat) : Except Error (List (Pair α)) := do
  let n ← s.currentNeighbors
  match n.containing? atom with
  | some pairs => .ok pairs
  | none => .error (.parameter (.atomOutOfBounds atom s.species.size))

variable [Scalar α]

/-- Is there a neighbor list for this cutoff? -/
def hasNeighborsFor (s : SimpleSystem α) (cutoff : α) : Bool :=
  match s.neighbors with
  | some n => Scalar.eq n.cutoff cutoff
  | none => false

/-- Compute the neighbor list for a cutoff, unless it is the current one. -/
def computeNeighbors (cutoff : α) : Traced (SimpleSystem α) Unit := do
  unless Scalar.isPositiveFinite cutoff do
    throw (.parameter (.neighborCutoff (Scalar.text cutoff)))
  let s ← Traced.value
  unless s.hasNeighborsFor cutoff do
    let n ← Traced.stateless (NeighborsList.new .checked s.positions s.cell cutoff)
    Traced.setValue { s with neighbors := some n }

instance : AtomicSystem (SimpleSystem α) α where
  size s := .ok s.species.size
  species s := .ok s.species
  positions s := .ok s.positions
  cell s := .ok s.cell
  computeNeighbors := computeNeighbors
  pairs s := return (← s.currentNeighbors).pairs
  pairsContaining := pairsContaining

/-- A copy of the atoms and the cell of any system. -/
def copyOf {σ : Type} [AtomicSystem σ α] (system : σ) : Except Error (SimpleSystem α) := do
  let species ← AtomicSystem.species system
  let positions ← AtomicSystem.positions system
  let size ← AtomicSystem.size system
  if species.size ≠ size || positions.size ≠ size then
    throw (.system (.sizeMismatch size species.size positions.size))
  return ⟨← AtomicSystem.cell system, species, positions, none⟩

end SimpleSystem

end Atomistic
