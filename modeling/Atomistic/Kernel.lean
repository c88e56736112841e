import Atomistic.Kernel.Dummy
import Atomistic.Kernel.SortedDistances

/-!
# Kernels

A kernel says what a descriptor holds: which environments and features there are, whether values
come with gradients, and how all of them are computed. There are two kernels, each created from a
name and parameters.
-/

namespace Atomistic

/-- The kernels. -/
inductive Kernel (α : Type) where
  | sortedDistances (k : SortedDistances α)
  | dummy (k : DummyKernel α)
  deriving DecidableEq, Repr

namespace Kernel

/-- The kernel of a registered name, with the parameters in a JSON text. -/
def parse (locate : Json.Locator) (name parameters : String) : Except Error (Kernel Float) :=
  let read {β : Type} (parse : String → Except Json.Fault β) : Except Error β :=
    (parse parameters).mapError fun fault => .json fault (locate parameters fault)
  match name with
  | "sorted_distances" => return .sortedDistances (← read SortedDistances.parse)
  | "dummy_calculator" => return .dummy (← read DummyKernel.parse)
  | _ => .error (.parameter (.calculatorUnknown name))

variable {σ α : Type}

/-- The default features. -/
def features : Kernel α → Except Error Labels
  | sortedDistances k => k.features
  | dummy _ => DummyKernel.features

/-- How environments are chosen. -/
def strategy : Kernel α → Strategy α
  | sortedDistances k => .atomSpecies k.cutoff false
  | dummy k => .atoms k.cutoff

/-- Are gradients computed? -/
def computesGradients : Kernel α → Bool
  | sortedDistances _ => false
  | dummy k => k.gradients

variable [Scalar α]

/-- The name of a kernel, for users. -/
def name : Kernel α → String
  | sortedDistances _ => "sorted distances vector"
  | dummy k => k.description

/-- Is this a cutoff to compute with? -/
def checkCutoff (cutoff : α) : Except Error Unit :=
  if Scalar.isPositiveFinite cutoff then .ok ()
  else .error (.parameter (.calculatorCutoff (Scalar.text cutoff)))

/-- Check that parameters make sense together with the rest of the library. -/
def validate : Kernel α → Except Error Unit
  | sortedDistances k => do
    checkCutoff k.cutoff
    if maxLabel < k.maxNeighbors then throw (.parameter (.neighborCountTooLarge k.maxNeighbors))
  | dummy k => checkCutoff k.cutoff

variable [AtomicSystem σ α]

/-- Compute the values and the gradients of a descriptor, and tell how that went. Values that were
written before something failed are kept; gradients are only written after all values. -/
def fill (k : Kernel α) (workers : Workers) (d : Descriptor α) :
    Traced (Systems σ) (Descriptor α × Except Error Unit) := do
  match k with
  | sortedDistances k =>
    return ({ d with values := d.values.write (← k.values d.environments d.features) }, .ok ())
  | dummy k =>
    let (features, rows, outcome) ← k.values workers d.environments d.features
    let written := { d with values := d.values.write rows }
    match outcome with
    | .error e => return (written, .error e)
    | .ok () =>
      let slopes := features.map DummyFeature.slope
      return ({ written with
        gradients := d.gradients.map fun g =>
          { g with values := g.values.write (List.replicate g.values.rows slopes) } }, .ok ())

end Kernel

end Atomistic
