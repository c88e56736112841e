import Atomistic.AtomicSystem.Recorded
import Atomistic.Foreign.Callbacks

/-!
# Forwarding callbacks

Any atomic system can be put behind callbacks that forward to it. To see what becomes of callbacks
that are not so well behaved, some of them can be replaced.
-/

namespace Atomistic.Foreign

/-- What can take the place of a callback that forwards. -/
inductive Substitute where
  /-- Nothing. -/
  | missing
  /-- A callback that answers a status and does nothing else. -/
  | silent (status : Status)
  /-- A callback that forwards, and then leaves a null pointer. -/
  | withoutItems
  deriving DecidableEq, Repr

/-- All items of a list. -/
def Block.ofList {β : Type} (items : List β) : Block β := ⟨some items, items.length⟩

/-- A block whose pointer is null. -/
def Block.withoutItems {β : Type} (b : Block β) : Block β := { b with items := none }

/-- The answer with a result, or with the status of an error and an untouched place. -/
def Answer.ofExcept {β : Type} (untouched : β) : Except Error β → Answer β
  | .ok value => ⟨.success, value⟩
  | .error e => ⟨.ofError e, untouched⟩

namespace Callbacks

variable {σ α ι β : Type}

/-- A callback that forwards, or its substitute. -/
def forward (substitute : Option Substitute) (untouched : β) (withoutItems : β → β)
    (question : ι → Except Error β) : Option (ι → Answer β) :=
  match substitute with
  | some .missing => none
  | some (.silent status) => some fun _ => ⟨status, untouched⟩
  | some .withoutItems => some fun input => .ofExcept untouched ((question input).map withoutItems)
  | none => some fun input => .ofExcept untouched (question input)

variable [Scalar α] [AtomicSystem σ α]

/-- Compute neighbors, and answer how that went. -/
def forwardNeighbors (cutoff : α) (system : σ) : Answer σ × Trace :=
  let (outcome, after, left) := (AtomicSystem.computeNeighbors cutoff).outcome system
  (⟨.ofOutcome outcome, after⟩, left)

/-- Callbacks that forward to a system, except for substitutes, and for a cell that is written
without asking the system. -/
def ofSystem (substitute : Request → Option Substitute) (cell : Option (Matrix3 α)) :
    Callbacks σ α where
  size := forward (substitute .size) 0 id AtomicSystem.size
  species := forward (substitute .species) none (fun _ => none) fun s =>
    return some (← AtomicSystem.species s).toList
  positions := forward (substitute .positions) none (fun _ => none) fun s =>
    return some (← AtomicSystem.positions s).toList
  cell := forward (substitute .cell) Matrix3.zero id fun s =>
    match cell with
    | some matrix => .ok matrix
    | none => return (← AtomicSystem.cell s).matrix
  computeNeighbors :=
    match substitute .computeNeighbors with
    | some .missing => none
    | some (.silent status) => some fun _ system => (⟨status, system⟩, #[])
    | some .withoutItems | none => some forwardNeighbors
  pairs := forward (substitute .pairs) ⟨none, 0⟩ Block.withoutItems fun s =>
    return Block.ofList (← AtomicSystem.pairs s)
  pairsContaining :=
    forward (substitute .pairsContaining) ⟨none, 0⟩ Block.withoutItems fun (s, atom) =>
      return Block.ofList (← AtomicSystem.pairsContaining s atom)

end Callbacks

end Atomistic.Foreign
