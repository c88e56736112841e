import Atomistic.AtomicSystem

/-!
# Recorded systems

A system that gives recorded answers, whether or not they agree with each other, and that refuses
some requests. It computes no neighbors, and only remembers the cutoffs that it was asked for.
-/

namespace Atomistic

/-- What a system can be asked. -/
inductive Request where
  | size
  | species
  | positions
  | cell
  | computeNeighbors
  | pairs
  | pairsContaining
  deriving DecidableEq, Repr

namespace Request

/-- The name of a request. -/
def name : Request → String
  | size => "size"
  | species => "species"
  | positions => "positions"
  | cell => "cell"
  | computeNeighbors => "compute_neighbors"
  | pairs => "pairs"
  | pairsContaining => "pairs_containing"

/-- The request of a name. -/
def ofName? (name : String) : Option Request :=
  [size, species, positions, cell, computeNeighbors, pairs, pairsContaining].find?
    fun r => r.name == name

end Request

/-- A system made of its answers. -/
structure RecordedSystem (α : Type) where
  size : Nat
  species : Array Int
  positions : Array (Vector3 α)
  cell : UnitCell α
  pairs : List (Pair α)
  /-- The pairs of each atom. -/
  pairsContaining : Array (List (Pair α))
  /-- The requests that are refused. -/
  refused : List Request
  /-- The cutoffs that were asked for, latest last. -/
  cutoffs : Array α

namespace RecordedSystem

variable {α : Type}

/-- For each atom, the pairs that contain it. -/
def distribute (size : Nat) (pairs : List (Pair α)) : Array (List (Pair α)) :=
  Array.ofFn fun atom : Fin size => pairs.filter (·.contains atom)

/-- Give an answer, unless the request is refused. -/
def reply {β : Type} (s : RecordedSystem α) (request : Request) (answer : β) : Except Error β :=
  if s.refused.contains request then .error (.system (.recordedFailure request.name))
  else .ok answer

instance : AtomicSystem (RecordedSystem α) α where
  size s := s.reply .size s.size
  species s := s.reply .species s.species
  positions s := s.reply .positions s.positions
  cell s := s.reply .cell s.cell
  computeNeighbors cutoff := do
    let s ← Traced.value
    Traced.setValue { s with cutoffs := s.cutoffs.push cutoff }
    Traced.ofExcept (s.reply .computeNeighbors ())
  pairs s := s.reply .pairs s.pairs
  pairsContaining s atom := do
    s.reply .pairsContaining ()
    match s.pairsContaining[atom]? with
    | some pairs => .ok pairs
    | none => .error (.system .recordedAtomOutOfBounds)

end RecordedSystem

end Atomistic
