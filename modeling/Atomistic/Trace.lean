import Atomistic.Error

/-!
# Traced computations

A computation over some state may fail, and what it did to the state before it failed stays done.
On the way it leaves a trace: records for the user, and marks where a measured part of the library
begins and ends. `Traced s` holds such computations over a state of type `s`. A trace only grows,
so nothing that is computed depends on it; who listens, and what is counted, is decided afterwards.
-/

namespace Atomistic

/-- How serious a record is. -/
inductive Level where
  | error
  | warn
  | info
  | debug
  deriving DecidableEq, Repr

/-- Levels are numbered from the most serious one. -/
def Level.number : Level → Nat
  | error => 1
  | warn => 2
  | info => 3
  | debug => 4

/-- The parts of the library that leave records. -/
inductive Origin where
  | neighbors
  | densify
  | calculator
  | dummyCalculator
  deriving DecidableEq, Repr

/-- The path under which a part of the library is known to users. -/
def Origin.path : Origin → String
  | neighbors => "rascaline::systems::neighbors"
  | densify => "rascaline::descriptor::densify"
  | calculator => "rascaline::calculator"
  | dummyCalculator => "rascaline::calculators::dummy_calculator"

/-- Something that users are told. -/
structure Record where
  level : Level
  origin : Origin
  text : String
  deriving DecidableEq, Repr

/-- A record as it is handed to a listener: where it comes from, then what it says. -/
def Record.message (r : Record) : String := r.origin.path ++ " -- " ++ r.text

/-- The parts of the library whose calls are measured. -/
inductive Span where
  | neighborsList
  | compute
  | densify
  | densifyToFeatures
  | sortedDistances
  | dummyCalculator
  deriving DecidableEq, Repr

/-- The path under which a measured part is known to users. -/
def Span.path : Span → String
  | neighborsList => "rascaline::systems::neighbors::NeighborsList"
  | compute => "rascaline::calculator::Calculator::compute"
  | densify => "rascaline::descriptor::densify::Descriptor::densify"
  | densifyToFeatures => "rascaline::descriptor::densify::Descriptor::densify_to_features"
  | sortedDistances => "rascaline::calculators::sorted_distances::SortedDistances::compute"
  | dummyCalculator => "rascaline::calculators::dummy_calculator::DummyCalculator::compute"

/-- Records that are left together: groups of records, each of them in its order. The groups have no
order among themselves. -/
abbrev Burst := List (List Record)

/-- One entry of a trace. -/
inductive Event where
  | records (burst : Burst)
  | enter (s : Span)
  | leave (s : Span)
  deriving DecidableEq, Repr

/-- What a computation left behind, oldest entry first. -/
abbrev Trace := Array Event

/-- The bursts of records of a trace. -/
def Trace.bursts (t : Trace) : List Burst :=
  t.toList.filterMap fun
    | .records burst => some burst
    | _ => none

/-- The records of a trace. Those of one burst may have been left in another order of its groups. -/
def Trace.records (t : Trace) : List Record := t.bursts.flatten.flatten

/-- A computation over a state, which may fail and leaves a trace. -/
abbrev Traced (s : Type) := EStateM Error (s × Trace)

namespace Traced

variable {s t β : Type}

/-- Append an entry to the trace. -/
def emit (e : Event) : Traced s Unit := modify fun (v, trace) => (v, trace.push e)

/-- Leave a record. -/
def log (level : Level) (origin : Origin) (text : String) : Traced s Unit :=
  emit (.records [[⟨level, origin, text⟩]])

/-- Leave groups of records of the same kind, the groups in no particular order. -/
def logGroups (level : Level) (origin : Origin) (groups : List (List String)) : Traced s Unit :=
  emit (.records (groups.map (·.map (⟨level, origin, ·⟩))))

/-- Append all that another trace holds. -/
def replay (t : Trace) : Traced s Unit := modify fun (v, trace) => (v, trace ++ t)

/-- The current state. -/
def value : Traced s s := do return (← get).1

/-- Replace the state. -/
def setValue (v : s) : Traced s Unit := modify fun (_, trace) => (v, trace)

/-- Go on with the answer, or fail with the error. -/
def ofExcept : Except Error β → Traced s β
  | .ok b => pure b
  | .error e => throw e

/-- A question asked of the current state. -/
def ask (question : s → Except Error β) : Traced s β := do ofExcept (question (← value))

/-- Run a computation inside of a measured part, which also ends when the computation fails. -/
def within (span : Span) (m : Traced s β) : Traced s β := fun (v, trace) =>
  match m (v, trace.push (.enter span)) with
  | .ok b (v, trace) => .ok b (v, trace.push (.leave span))
  | .error e (v, trace) => .error e (v, trace.push (.leave span))

/-- Run a computation on a part of the state. -/
def focus (part : s → t) (replace : s → t → s) (m : Traced t β) : Traced s β := fun (v, trace) =>
  match m (part v, trace) with
  | .ok b (p, trace) => .ok b (replace v p, trace)
  | .error e (p, trace) => .error e (replace v p, trace)

/-- Run a computation that uses no state. -/
def stateless (m : Traced Unit β) : Traced s β := focus (fun _ => ()) (fun v _ => v) m

/-- Run a computation on one element of an array; there being none is a broken assumption. -/
def atIndex (i : Nat) (m : Traced t β) : Traced (Array t) β := fun (v, trace) =>
  if h : i < v.size then
    match m (v[i], trace) with
    | .ok b (e, trace) => .ok b (v.set i e, trace)
    | .error err (e, trace) => .error err (v.set i e, trace)
  else .error (.panic .unspecified) (v, trace)

/-- The outcome of a computation from a state: its answer, the state after it, and its trace. -/
def outcome (m : Traced s β) (v : s) : Except Error β × s × Trace :=
  match m (v, #[]) with
  | .ok b (v, trace) => (.ok b, v, trace)
  | .error e (v, trace) => (.error e, v, trace)

end Traced

end Atomistic
