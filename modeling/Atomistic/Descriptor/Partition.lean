import Atomistic.Labels
import Atomistic.Trace

/-!
# Partitions of variables

To move variables from one axis of a descriptor to the other one, its variables are parted into
those that move, in the order in which they were asked for, and those that stay, in their own
order. Variables that are on the other axis already are left alone.
-/

namespace Atomistic

/-- The positions of the variables that move, and of those that stay. -/
structure Partition where
  moved : List Nat
  kept : List Nat
  deriving DecidableEq, Repr

namespace Partition

/-- The entries of a row at some positions. -/
def pick {β : Type} (positions : List Nat) (row : List β) : List β :=
  positions.filterMap fun i => row[i]?

/-- The entries that move. -/
def movedOf {β : Type} (p : Partition) (row : List β) : List β := pick p.moved row

/-- The entries that stay. -/
def keptOf {β : Type} (p : Partition) (row : List β) : List β := pick p.kept row

/-- The first name that an earlier one repeats. -/
def repeated? : (before : List String) → List String → Option String
  | _, [] => none
  | before, name :: rest =>
    if before.contains name then some name else repeated? (name :: before) rest

/-- The position of a variable to move, or none for one that is on the destination axis. -/
def locate (source target : Labels) (name : String) : Except Error (Option Nat) :=
  match source.names.idxOf? name, target.names.contains name with
  | some _, true => .error (.parameter (.variableOnBothAxes name))
  | some i, false => .ok (some i)
  | none, true => .ok none
  | none, false => .error (.parameter (.variableUnknown name))

/-- The positions of the variables to move, in order. -/
def locateAll (source target : Labels) : List String → Traced Unit (List Nat)
  | [] => return []
  | name :: rest => do
    match ← Traced.ofExcept (locate source target name) with
    | some i => return i :: (← locateAll source target rest)
    | none =>
      Traced.log .debug .densify s!"'{name}' is already in the destination indexes, skipping it"
      locateAll source target rest

/-- Part the variables of `source`, to move those that are wanted to `target`. -/
def ofNames (wanted : List String) (source target : Labels) : Traced Unit Partition := do
  match repeated? [] wanted with
  | some name => throw (.parameter (.variableRequestedTwice name))
  | none =>
    let moved ← locateAll source target wanted
    return ⟨moved, (List.range source.size).filter fun i => !moved.contains i⟩

end Partition

end Atomistic
