import Std.Data.HashSet
import Atomistic.AtomicSystem.Systems
import Atomistic.Labels

/-!
# Selections

A calculation can be restricted to some of its default environments and features, given by their
positions or by their labels. What is selected appears in the order of the selection.
-/

namespace Atomistic

/-- Which rows of a table are wanted. -/
inductive Selection where
  | all
  | rows (positions : List Nat)
  | values (labels : Labels)
  deriving DecidableEq

namespace Selection

/-- Check that positions are below `count` and distinct, also from those in `seen`. -/
def checkPositions (axis : String) (count : Nat) :
    (seen : Std.HashSet Nat) → List Nat → Except Error Unit
  | _, [] => .ok ()
  | seen, i :: rest =>
    if count ≤ i then .error (.parameter (.selectedRowOutOfBounds axis i count))
    else if seen.contains i then .error (.parameter (.selectedRowTwice axis i))
    else checkPositions axis count (seen.insert i) rest

/-- The rows at some positions of a table. -/
def atPositions (axis : String) (table : Labels) (positions : List Nat) : Except Error Labels := do
  checkPositions axis table.count ∅ positions
  let rows := table.rows.toArray
  Labels.ofRows table.names (← positions.mapM (elementAt rows))

/-- The given rows, if they are rows of a table. -/
def atLabels (axis : String) (table labels : Labels) : Except Error Labels :=
  if labels.names ≠ table.names then
    .error (.parameter (.selectedNames axis table.names labels.names))
  else
    let index := table.index
    match labels.rows.find? fun row => !index.contains row with
    | some row => .error (.parameter (.selectedRowUnknown axis row))
    | none => .ok labels

/-- Select rows of a table, which is said to be along `axis` in messages. -/
def select (s : Selection) (axis : String) (table : Labels) : Except Error Labels :=
  match s with
  | all => .ok table
  | rows positions => atPositions axis table positions
  | values labels => atLabels axis table labels

end Selection

end Atomistic
