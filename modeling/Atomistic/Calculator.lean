import Atomistic.AtomicSystem.Simple
import Atomistic.Kernel
import Atomistic.Selection

/-!
# Calculators

A calculator is a kernel together with the text of its parameters. Its `compute` finds the
environments of some systems and the features of the kernel, selects those that are wanted, and has
the kernel fill a descriptor with them, for which it may employ workers. From the start of a
calculation to its successful end, the values of the descriptor can not be read.
-/

namespace Atomistic

/-- A kernel created from parameters. -/
structure Calculator (α : Type) where
  kernel : Kernel α
  /-- The JSON text of the parameters, as it was given. -/
  parameters : String
  deriving DecidableEq, Repr

/-- What a single calculation is about. -/
structure CalculationOptions where
  /-- Are systems copied into simple systems before anything else is done with them? -/
  useNativeSystem : Bool
  /-- The environments that are wanted. -/
  samples : Selection
  /-- The features that are wanted. -/
  features : Selection
  deriving DecidableEq

namespace CalculationOptions

/-- All environments and all features, of the systems themselves. -/
def all : CalculationOptions := ⟨false, .all, .all⟩

end CalculationOptions

namespace Calculator

/-- The calculator of a registered name with the given parameters. -/
def create (locate : Json.Locator) (name parameters : String) :
    Except Error (Calculator Float) := do
  let kernel ← Kernel.parse locate name parameters
  kernel.validate
  return ⟨kernel, parameters⟩

variable {σ τ α β : Type} [Scalar α]

/-- The name of the kernel. -/
def name (c : Calculator α) : String := c.kernel.name

/-- A calculator as it is shown for debugging. -/
def description (c : Calculator α) : String :=
  "Calculator \x7b name: " ++ Text.quote c.name ++ ", parameters: " ++ Text.quote c.parameters
    ++ " \x7d"

/-- Systems, and the descriptor that a calculation on them fills. -/
abbrev Workspace (σ α : Type) := Systems σ × Descriptor α

/-- Work with the systems. -/
def onSystems (m : Traced (Systems σ) β) : Traced (Workspace σ α) β :=
  Traced.focus (·.1) (fun w systems => (systems, w.2)) m

/-- Replace the descriptor. -/
def setDescriptor (d : Descriptor α) : Traced (Workspace σ α) Unit := do
  Traced.setValue ((← Traced.value).1, d)

variable [AtomicSystem σ α] [AtomicSystem τ α]

/-- The environments that are wanted. -/
def environments (c : Calculator α) (samples : Selection) : Traced (Systems σ) Labels := do
  Traced.ofExcept c.kernel.strategy.check
  let all ← c.kernel.strategy.environments
  Traced.ofExcept (samples.select "environments" all)

/-- The features that are wanted. -/
def selectedFeatures (c : Calculator α) (features : Selection) : Except Error Labels := do
  features.select "features" (← c.kernel.features)

/-- The descriptor prepared for the given environments and features, ready to be filled. -/
def prepare (c : Calculator α) (d : Descriptor α) (environments features : Labels) :
    Traced (Systems σ) (Descriptor α) := do
  if !c.kernel.computesGradients then return d.prepare environments features
  match ← c.kernel.strategy.gradientsFor environments with
  | none => throw (.internal (.gradientsUnsupported c.name))
  | some gradients => Traced.ofExcept (d.prepareWithGradients environments features gradients)

/-- Compute a descriptor, with the systems at hand. -/
def computeDirectly (c : Calculator α) (workers : Workers) (samples features : Selection) :
    Traced (Workspace σ α) Unit := do
  let (systems, d) ← Traced.value
  setDescriptor { d with computed := false }
  let environments ← onSystems (c.environments samples)
  let features ← Traced.ofExcept (c.selectedFeatures features)
  Traced.log .debug .calculator (s!"computing {c.name} with {environments.count} environments and "
    ++ s!"{features.count} features on {systems.size} systems")
  let prepared ← onSystems (c.prepare d environments features)
  setDescriptor prepared
  let (filled, outcome) ← onSystems (c.kernel.fill workers prepared)
  setDescriptor filled
  Traced.ofExcept outcome
  setDescriptor { filled with computed := true }

/-- Work with other systems in the place of those at hand, which are left alone. -/
def withSystems (systems : Systems τ) (m : Traced (Workspace τ α) β) : Traced (Workspace σ α) β :=
  Traced.focus (fun w => (systems, w.2)) (fun w v => (w.1, v.2)) m

/-- Compute a descriptor. -/
def compute (c : Calculator α) (workers : Workers) (options : CalculationOptions) :
    Traced (Workspace σ α) Unit :=
  Traced.within .compute do
    if options.useNativeSystem then
      let copies ← Traced.ask fun (systems, _) => systems.mapM SimpleSystem.copyOf
      withSystems copies (c.computeDirectly workers options.samples options.features)
    else c.computeDirectly workers options.samples options.features

end Calculator

end Atomistic
