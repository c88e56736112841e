import Atomistic.AtomicSystem
import Atomistic.Foreign.Status

/-!
# Systems behind callbacks

A system of another language is a table of callbacks over data of its own. Any callback may be
missing, may fail with a status, and may leave a null pointer where a caller expects data. Such a
system is an atomic system whose answers are those that the callbacks wrote, and all these failures
are errors of the system.
-/

namespace Atomistic.Foreign

/-- What a callback answers: a status, and what it wrote where it was asked to. -/
structure Answer (β : Type) where
  status : Status
  value : β
  deriving DecidableEq, Repr

/-- A number of items in memory, if the pointer to them is not null. -/
structure Block (β : Type) where
  items : Option (List β)
  count : Nat
  deriving DecidableEq, Repr

/-- The callbacks of a system with data of type `σ`. -/
structure Callbacks (σ α : Type) where
  size : Option (σ → Answer Nat)
  species : Option (σ → Answer (Option (List Int)))
  positions : Option (σ → Answer (Option (List (Vector3 α))))
  cell : Option (σ → Answer (Matrix3 α))
  /-- What becomes of the data when neighbors are computed, and what is left behind on the way. -/
  computeNeighbors : Option (α → σ → Answer σ × Trace)
  pairs : Option (σ → Answer (Block (Pair α)))
  pairsContaining : Option (σ × Nat → Answer (Block (Pair α)))

/-- A system of another language. -/
structure ForeignSystem (σ α : Type) where
  callbacks : Callbacks σ α
  data : σ

/-- A callback that has to be there. -/
def present {γ : Type} (name : String) : Option γ → Except Error γ
  | some callback => .ok callback
  | none => .error (.system (.callbackMissing name))

/-- A status that has to be a success. -/
def checkStatus (name : String) (s : Status) : Except Error Unit :=
  if s = .success then .ok () else .error (.system (.callbackFailed name s.code))

/-- What a callback wrote, if it is there and succeeded. -/
def call {ι β : Type} (name : String) (callback : Option (ι → Answer β)) (input : ι) :
    Except Error β := do
  let answer := (← present name callback) input
  checkStatus name answer.status
  return answer.value

/-- The items of a block, which are there unless there is none of them. -/
def Block.get {β : Type} (name : String) (b : Block β) : Except Error (List β) :=
  if b.count = 0 then .ok []
  else
    match b.items with
    | some items => .ok (items.take b.count)
    | none => .error (.system (.callbackNull name))

namespace ForeignSystem

variable {σ α β : Type}

/-- The number of atoms. -/
def size (s : ForeignSystem σ α) : Except Error Nat := call "size" s.callbacks.size s.data

/-- Data with one item for each atom. -/
def perAtom (s : ForeignSystem σ α) (name : String)
    (callback : Option (σ → Answer (Option (List β)))) : Except Error (Array β) := do
  let items ← call name callback s.data
  return (← (Block.mk items (← s.size)).get name).toArray

/-- The items that a callback wrote for some input. -/
def blockOf {ι : Type} (name : String) (callback : Option (ι → Answer (Block β))) (input : ι) :
    Except Error (List β) := do
  (← call name callback input).get name

/-- Have the callback compute neighbors. It may change its data also when it fails. -/
def computeNeighbors (cutoff : α) : Traced (ForeignSystem σ α) Unit := do
  let s ← Traced.value
  let callback ← Traced.ofExcept (present "compute_neighbors" s.callbacks.computeNeighbors)
  let (answer, left) := callback cutoff s.data
  Traced.replay left
  Traced.setValue { s with data := answer.value }
  Traced.ofExcept (checkStatus "compute_neighbors" answer.status)

variable [Scalar α]

instance : AtomicSystem (ForeignSystem σ α) α where
  size := size
  species s := s.perAtom "species" s.callbacks.species
  positions s := s.perAtom "positions" s.callbacks.positions
  cell s := do UnitCell.ofMatrix (← call "cell" s.callbacks.cell s.data)
  computeNeighbors := computeNeighbors
  pairs s := blockOf "pairs" s.callbacks.pairs s.data
  pairsContaining s atom :=
    blockOf "pairs_containing" s.callbacks.pairsContaining (s.data, atom)

end ForeignSystem

end Atomistic.Foreign
