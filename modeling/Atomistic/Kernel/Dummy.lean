import Atomistic.Descriptor
import Atomistic.Environments
import Atomistic.Json.Schema
import Atomistic.Workers

/-!
# A kernel for tests

A kernel that is simple enough to know its values: the number of an atom, shifted by a constant, and
the sum of the coordinates of the atom and of its neighbors. Its name can ask for a record to be
left, so that listeners can be tested too.
-/

namespace Atomistic

/-- The kernel for tests. -/
structure DummyKernel (α : Type) where
  cutoff : α
  /-- What is added to the number of an atom. -/
  delta : Int
  name : String
  /-- Are gradients computed? -/
  gradients : Bool
  deriving DecidableEq, Repr

/-- What a column of the dummy kernel holds. -/
inductive DummyFeature where
  /-- The number of the atom, shifted. -/
  | indexDelta
  /-- The sum of the coordinates of the atom and its neighbors. -/
  | coordinateSum
  deriving DecidableEq, Repr

namespace DummyFeature

/-- What the column with these labels holds. -/
def ofRow (row : List Int) : Except Error DummyFeature := do
  match ← labelAt row 0, ← labelAt row 1 with
  | 1, 0 => return indexDelta
  | 0, 1 => return coordinateSum
  | _, _ => throw (.parameter (.dummyFeature row))

/-- How a feature changes with a coordinate of a neighbor. -/
def slope {α : Type} [Scalar α] : DummyFeature → α
  | indexDelta => Scalar.zero
  | coordinateSum => Scalar.one

end DummyFeature

/-- Does a text occur in another one? -/
def occursIn (part : List Char) : List Char → Bool
  | [] => part.isEmpty
  | c :: rest => part.isPrefixOf (c :: rest) || occursIn part rest

namespace DummyKernel

/-- How parameters are written. -/
def schema : Json.Schema where
  name := "DummyCalculator"
  fields := [("cutoff", .number), ("delta", .integer), ("name", .text), ("gradients", .flag)]

/-- The kernel with the parameters in a JSON text. -/
def parse (text : String) : Except Json.Fault (DummyKernel Float) := do
  let row ← schema.parse text
  return ⟨row ⟨0, by decide⟩, row ⟨1, by decide⟩, row ⟨2, by decide⟩, row ⟨3, by decide⟩⟩

variable {σ α : Type}

/-- The features, each of which has a variable of its own. -/
def features : Except Error Labels := Labels.ofRows ["index_delta", "x_y_z"] [[1, 0], [0, 1]]

/-- The level at which the kernel is asked to leave its name as a record. -/
def announcement? (k : DummyKernel α) : Option Level :=
  if occursIn "log-test-info:".toList k.name.toList then some .info
  else if occursIn "log-test-warn:".toList k.name.toList then some .warn
  else none

variable [Scalar α]

/-- The kernel with its parameters, in words. -/
def description (k : DummyKernel α) : String :=
  s!"dummy test calculator with cutoff: {Scalar.text k.cutoff} - delta: {k.delta} - "
    ++ s!"name: {k.name} - gradients: {k.gradients}"

/-- The sum of three coordinates. -/
def total (v : Vector3 α) : α := v.x + v.y + v.z

variable [AtomicSystem σ α]

/-- The coordinates of an atom and of its neighbors, summed up. -/
def sumAround (system : σ) (center : Nat) : Except Error α := do
  let positions ← AtomicSystem.positions system
  let own := total (← elementAt positions center)
  let pairs ← AtomicSystem.pairsContaining system center
  pairs.foldlM (fun sum p => return sum + total (← elementAt positions (p.other center))) own

/-- What a column holds for an atom. -/
def value (k : DummyKernel α) (system : σ) (center : Nat) : DummyFeature → Except Error α
  | .indexDelta => return Scalar.ofNat center + Scalar.ofInt k.delta
  | .coordinateSum => sumAround system center

/-- The system and the atom of an environment. -/
def centerOf (systems : Systems σ) (environment : List Int) : Except Error (σ × Nat) := do
  let system ← elementAt systems (← positionAt environment 0)
  return (system, ← positionAt environment 1)

/-- Compute the values of an environment, column by column. -/
def row (k : DummyKernel α) (systems : Systems σ) (features : List DummyFeature)
    (environment : List Int) : RowRun α :=
  match centerOf systems environment with
  | .ok (system, center) => .ofColumns (k.value system center) features
  | .error e => .failed e

/-- Leave the name as a record if that is asked for, find out what the columns hold, and have the
systems of the environments compute neighbors. -/
def survey (k : DummyKernel α) (environments features : Labels) :
    Traced (Systems σ) (List DummyFeature) := do
  if let some level := k.announcement? then
    Traced.log level .dummyCalculator k.name
  let features ← Traced.ofExcept (features.rows.mapM DummyFeature.ofRow)
  let systems ← Traced.ofExcept (requestedSystems environments)
  let systems ← Traced.ofExcept (systems.mapM positionOfLabel)
  systems.forM (Systems.computeNeighbors k.cutoff)
  return features

/-- What the columns hold, what is written to the rows of all environments, and how that went. -/
def values (k : DummyKernel α) (workers : Workers) (environments features : Labels) :
    Traced (Systems σ) (List DummyFeature × List (List α) × Except Error Unit) :=
  Traced.within .dummyCalculator do
    let features ← k.survey environments features
    let systems ← Traced.value
    return (features, workers.share (environments.rows.map (k.row systems features)))

end DummyKernel

end Atomistic
