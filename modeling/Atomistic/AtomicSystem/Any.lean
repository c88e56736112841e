import Atomistic.AtomicSystem.Recorded
import Atomistic.AtomicSystem.Simple

/-!
# Systems of both kinds

Calculations run on systems of one type. This is the type of systems that are either simple or
recorded.
-/

namespace Atomistic

/-- A system that stores its atoms, or one that gives recorded answers. -/
inductive AnySystem (α : Type) where
  | simple (s : SimpleSystem α)
  | recorded (s : RecordedSystem α)

namespace AnySystem

variable {α : Type} [Scalar α]

/-- Compute neighbors with the system at hand. -/
def computeNeighbors (cutoff : α) : Traced (AnySystem α) Unit := do
  match ← Traced.value with
  | .simple s => Traced.focus (fun _ => s) (fun _ => .simple) (AtomicSystem.computeNeighbors cutoff)
  | .recorded s =>
    Traced.focus (fun _ => s) (fun _ => .recorded) (AtomicSystem.computeNeighbors cutoff)

instance : AtomicSystem (AnySystem α) α where
  size
    | .simple s => AtomicSystem.size s
    | .recorded s => AtomicSystem.size s
  species
    | .simple s => AtomicSystem.species s
    | .recorded s => AtomicSystem.species s
  positions
    | .simple s => AtomicSystem.positions s
    | .recorded s => AtomicSystem.positions s
  cell
    | .simple s => AtomicSystem.cell s
    | .recorded s => AtomicSystem.cell s
  computeNeighbors := computeNeighbors
  pairs
    | .simple s => AtomicSystem.pairs s
    | .recorded s => AtomicSystem.pairs s
  pairsContaining
    | .simple s => AtomicSystem.pairsContaining s
    | .recorded s => AtomicSystem.pairsContaining s

end AnySystem

end Atomistic
