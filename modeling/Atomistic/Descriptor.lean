import Atomistic.Dense
import Atomistic.Labels

/-!
# Descriptors

The result of a calculation: a value for each environment and each feature, and the gradients of
these values, if they were computed. The rows and columns are described by tables of labels. The
labels of a gradient row start with those of its environment.

A descriptor is prepared for a calculation, which sets its tables and fills its values with zeros;
the values can be read once the calculation is over. The arrays of an earlier calculation are used
again, their values are not.
-/

namespace Atomistic

/-- The gradients of a descriptor, with the labels of their rows. -/
structure Gradients (α : Type) where
  labels : Labels
  values : Dense α
  deriving DecidableEq

@[ext] theorem Gradients.ext {α : Type} {g g' : Gradients α} (labels : g.labels = g'.labels)
    (values : g.values = g'.values) : g = g' := by
  cases g; cases g'; subst labels; subst values; rfl

/-- The values and gradients of some environments. -/
structure Descriptor (α : Type) where
  values : Dense α
  environments : Labels
  features : Labels
  gradients : Option (Gradients α)
  /-- Did a calculation fill this descriptor? -/
  computed : Bool
  deriving DecidableEq

/-- The tables of labels of a descriptor. -/
inductive Axis where
  | features
  | environments
  | gradients
  deriving DecidableEq, Repr

namespace Descriptor

variable {α : Type}

@[ext] theorem ext {d d' : Descriptor α} (values : d.values = d'.values)
    (environments : d.environments = d'.environments) (features : d.features = d'.features)
    (gradients : d.gradients = d'.gradients) (computed : d.computed = d'.computed) : d = d' := by
  cases d; cases d'; subst values; subst environments; subst features; subst gradients
  subst computed; rfl

/-- The labels along an axis, none for the gradients of a descriptor without them. -/
def labels? (d : Descriptor α) : Axis → Option Labels
  | .features => some d.features
  | .environments => some d.environments
  | .gradients => d.gradients.map (·.labels)

/-- The values, which only a calculation gives. -/
def readValues (d : Descriptor α) : Except Error (Dense α) :=
  if d.computed then .ok d.values else .error (.parameter .valuesNotComputed)

/-- The values of the gradients, if there are any. -/
def readGradients (d : Descriptor α) : Option (Dense α) := d.gradients.map (·.values)

/-- The descriptor with the given values and gradients, entry by entry. -/
def fill (d : Descriptor α) (values gradients : Nat → α) : Descriptor α :=
  { d with
    values := d.values.fill values
    gradients := d.gradients.map fun g => { g with values := g.values.fill gradients }
    computed := true }

variable [Scalar α]

/-- A descriptor to be filled by a calculation. -/
def new : Descriptor α := ⟨Dense.zeros 0 0, Labels.empty, Labels.empty, none, false⟩

/-- A descriptor without gradients that is ready for a calculation. -/
def prepared (environments features : Labels) : Descriptor α where
  values := Dense.zeros environments.count features.count
  environments := environments
  features := features
  gradients := none
  computed := false

/-- A descriptor that is ready for a calculation with gradients, whose labels start with those of
the environments. -/
def preparedWithGradients (environments features gradients : Labels) :
    Except Error (Descriptor α) :=
  if environments.names.isPrefixOf gradients.names then
    .ok { prepared environments features with
      gradients := some ⟨gradients, Dense.zeros gradients.count features.count⟩ }
  else .error (.internal (.gradientNames gradients.names environments.names))

/-- Prepare a descriptor for a calculation without gradients, in the array that it has. -/
def prepare (d : Descriptor α) (environments features : Labels) : Descriptor α where
  values := d.values.reset environments.count features.count
  environments := environments
  features := features
  gradients := none
  computed := false

/-- Prepare a descriptor for a calculation with gradients, in the arrays that it has. -/
def prepareWithGradients (d : Descriptor α) (environments features gradients : Labels) :
    Except Error (Descriptor α) :=
  if environments.names.isPrefixOf gradients.names then
    let array := (d.gradients.map (·.values)).getD (Dense.zeros 0 0)
    .ok { d.prepare environments features with
      gradients := some ⟨gradients, array.reset gradients.count features.count⟩ }
  else .error (.internal (.gradientNames gradients.names environments.names))

/-- Nothing is left of an earlier calculation. -/
theorem prepare_eq (d : Descriptor α) (environments features : Labels) :
    d.prepare environments features = prepared environments features := by
  rw [prepare, prepared, Dense.reset_eq_zeros]

theorem prepareWithGradients_eq (d : Descriptor α) (environments features gradients : Labels) :
    d.prepareWithGradients environments features gradients
      = preparedWithGradients environments features gradients := by
  simp only [prepareWithGradients, preparedWithGradients, prepare_eq, Dense.reset_eq_zeros]

end Descriptor

end Atomistic
