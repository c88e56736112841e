import Atomistic.Geometry.Vector3
import Atomistic.Error

/-!
# Three by three matrices

A matrix is a triple of rows. The inverse is the transposed matrix of cofactors over the
determinant; it is refused when the determinant is within `Scalar.epsilon` of zero.
-/

namespace Atomistic

/-- A matrix, as its rows x, y and z. -/
abbrev Matrix3 (α : Type) := Vector3 (Vector3 α)

namespace Matrix3

variable {α : Type}

def transposed (m : Matrix3 α) : Matrix3 α where
  x := ⟨m.x.x, m.y.x, m.z.x⟩
  y := ⟨m.x.y, m.y.y, m.z.y⟩
  z := ⟨m.x.z, m.y.z, m.z.z⟩

/-- The entries on the diagonal. -/
def diagonal (m : Matrix3 α) : Vector3 α := ⟨m.x.x, m.y.y, m.z.z⟩

/-- The entries outside of the diagonal, row by row. -/
def offDiagonal (m : Matrix3 α) : List α := [m.x.y, m.x.z, m.y.x, m.y.z, m.z.x, m.z.y]

/-- All entries, row by row. -/
def toList (m : Matrix3 α) : List α := m.x.toList ++ m.y.toList ++ m.z.toList

variable [Scalar α]

/-- The matrix with the given diagonal, and zeros elsewhere. -/
def ofDiagonal (v : Vector3 α) : Matrix3 α where
  x := ⟨v.x, Scalar.zero, Scalar.zero⟩
  y := ⟨Scalar.zero, v.y, Scalar.zero⟩
  z := ⟨Scalar.zero, Scalar.zero, v.z⟩

def zero : Matrix3 α := Vector3.replicate Vector3.zero

/-- The identity matrix. -/
def one : Matrix3 α := ofDiagonal (Vector3.replicate Scalar.one)

/-- The determinant, expanded along the first row. -/
def determinant (m : Matrix3 α) : α :=
  m.x.x * (m.y.y * m.z.z - m.z.y * m.y.z)
    - m.x.y * (m.y.x * m.z.z - m.y.z * m.z.x)
    + m.x.z * (m.y.x * m.z.y - m.y.y * m.z.x)

/-- The matrix times a vector. -/
def mulVector (m : Matrix3 α) (v : Vector3 α) : Vector3 α := m.map (·.dot v)

/-- The product of two matrices. -/
def mul (m n : Matrix3 α) : Matrix3 α :=
  let columns := n.transposed
  m.map fun row => columns.map row.dot

/-- Equality of all entries, as the scalars compare. -/
def eq (m n : Matrix3 α) : Bool := (Vector3.zipWith Vector3.eq m n).all id

/-- The transposed cofactors, each times `s`. -/
def adjugateTimes (m : Matrix3 α) (s : α) : Matrix3 α where
  x :=
    { x := (m.y.y * m.z.z - m.z.y * m.y.z) * s
      y := (m.x.z * m.z.y - m.x.y * m.z.z) * s
      z := (m.x.y * m.y.z - m.x.z * m.y.y) * s }
  y :=
    { x := (m.y.z * m.z.x - m.y.x * m.z.z) * s
      y := (m.x.x * m.z.z - m.x.z * m.z.x) * s
      z := (m.y.x * m.x.z - m.x.x * m.y.z) * s }
  z :=
    { x := (m.y.x * m.z.y - m.z.x * m.y.y) * s
      y := (m.z.x * m.x.y - m.x.x * m.z.y) * s
      z := (m.x.x * m.y.y - m.y.x * m.x.y) * s }

/-- The inverse matrix; a matrix whose determinant is not clearly different from zero has none. -/
def inverse (m : Matrix3 α) : Except Error (Matrix3 α) :=
  let determinant := m.determinant
  if Scalar.lt Scalar.epsilon (Scalar.abs determinant) then
    .ok (m.adjugateTimes (Scalar.one / determinant))
  else .error (.panic .singularMatrix)

end Matrix3

end Atomistic
