import Atomistic.Scalar

/-!
# Triples and vectors

A `Vector3` holds one value per spatial direction: coordinates of a point, bin numbers of a grid,
or numbers of cell vectors. Over scalars it is a vector of space, with the usual arithmetic; sums
of three terms are taken from the left, in the order x, y, z.
-/

namespace Atomistic

/-- One value for each of the directions x, y and z. -/
structure Vector3 (β : Type) where
  x : β
  y : β
  z : β
  deriving DecidableEq, Hashable, Repr

namespace Vector3

variable {β γ δ : Type}

/-- The same value in the three directions. -/
def replicate (b : β) : Vector3 β := ⟨b, b, b⟩

def map (f : β → γ) (v : Vector3 β) : Vector3 γ := ⟨f v.x, f v.y, f v.z⟩

/-- Combine two triples direction by direction. -/
def zipWith (f : β → γ → δ) (u : Vector3 β) (v : Vector3 γ) : Vector3 δ :=
  ⟨f u.x v.x, f u.y v.y, f u.z v.z⟩

/-- Does a property hold in the three directions? -/
def all (p : β → Bool) (v : Vector3 β) : Bool := p v.x && p v.y && p v.z

def toList (v : Vector3 β) : List β := [v.x, v.y, v.z]

/-- The triple of a list of three values. -/
def ofList? : List β → Option (Vector3 β)
  | [x, y, z] => some ⟨x, y, z⟩
  | _ => none

theorem ofList?_toList (v : Vector3 β) : ofList? v.toList = some v := rfl

variable {α : Type} [Scalar α]

def zero : Vector3 α := replicate Scalar.zero

instance : Add (Vector3 α) := ⟨zipWith (· + ·)⟩

instance : Sub (Vector3 α) := ⟨zipWith (· - ·)⟩

instance : Neg (Vector3 α) := ⟨map (- ·)⟩

/-- The scalar product. -/
def dot (u v : Vector3 α) : α := u.x * v.x + u.y * v.y + u.z * v.z

/-- The vector product. -/
def cross (u v : Vector3 α) : Vector3 α where
  x := u.y * v.z - u.z * v.y
  y := u.z * v.x - u.x * v.z
  z := u.x * v.y - u.y * v.x

/-- The vector with every coordinate multiplied by a scalar. -/
def scale (v : Vector3 α) (s : α) : Vector3 α := v.map (· * s)

/-- The vector with every coordinate divided by a scalar. -/
def divide (v : Vector3 α) (s : α) : Vector3 α := v.map (· / s)

/-- The square of the length. -/
def norm2 (v : Vector3 α) : α := v.dot v

/-- The length. -/
def norm (v : Vector3 α) : α := Scalar.sqrt v.norm2

/-- The vector of length one in the same direction. -/
def normalized (v : Vector3 α) : Vector3 α := v.divide v.norm

/-- Equality of all coordinates, as the scalars compare. -/
def eq (u v : Vector3 α) : Bool := (zipWith Scalar.eq u v).all id

end Vector3

end Atomistic
