import Atomistic.Geometry.UnitCell
import Atomistic.Trace

/-!
# Atomic systems

What calculations ask of a system: its atoms, its box, and the pairs of atoms that are closer than
a cutoff. The pairs depend on a neighbor list that the system keeps, so computing it changes the
system; every other question leaves it alone. Any question may fail, and nothing makes the answers
of a system consistent with each other.
-/

namespace Atomistic

/-- Two neighboring atoms, and the vector from the first to the second one. -/
structure Pair (α : Type) where
  first : Nat
  second : Nat
  vector : Vector3 α
  deriving DecidableEq, Repr

namespace Pair

variable {α : Type}

/-- Is the atom one of the two? -/
def contains (p : Pair α) (atom : Nat) : Bool := p.first == atom || p.second == atom

/-- The two atoms. -/
def atoms (p : Pair α) : Nat × Nat := (p.first, p.second)

/-- The atom at the other end, for one of the two. -/
def other (p : Pair α) (atom : Nat) : Nat := if p.first == atom then p.second else p.first

/-- The distance between the two atoms. -/
def distance [Scalar α] (p : Pair α) : α := p.vector.norm

end Pair

/-- A type of systems, with scalars of type `α`. -/
class AtomicSystem (σ : Type) (α : outParam Type) where
  /-- The number of atoms. -/
  size : σ → Except Error Nat
  /-- The species of each atom. -/
  species : σ → Except Error (Array Int)
  /-- The position of each atom. -/
  positions : σ → Except Error (Array (Vector3 α))
  cell : σ → Except Error (UnitCell α)
  /-- Make `pairs` answer the pairs of atoms closer than the given cutoff. -/
  computeNeighbors : α → Traced σ Unit
  /-- Each pair of neighbors, once. -/
  pairs : σ → Except Error (List (Pair α))
  /-- The pairs that contain the given atom. -/
  pairsContaining : σ → Nat → Except Error (List (Pair α))

end Atomistic
