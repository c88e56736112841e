import Atomistic.Geometry.Matrix3

/-!
# Unit cells

The periodic box around a system, or the absence of one. A cell is given by its three vectors, the
rows of a matrix; the columns of the transposed matrix take fractional coordinates to cartesian
ones, and its inverse takes them back. Cells whose vectors lie along the axes are told apart, since
wrapping and images then go direction by direction.
-/

namespace Atomistic

/-- The kinds of periodic boundary conditions. -/
inductive CellShape where
  /-- No periodicity. -/
  | infinite
  /-- All vectors along the axes. -/
  | orthorhombic
  | triclinic
  deriving DecidableEq, Repr

/-- The box of a system. -/
structure UnitCell (α : Type) where
  /-- The cell vectors, as rows. -/
  matrix : Matrix3 α
  /-- From fractional to cartesian coordinates. -/
  toCartesian : Matrix3 α
  /-- From cartesian to fractional coordinates. -/
  toFractional : Matrix3 α
  shape : CellShape
  deriving DecidableEq

namespace UnitCell

variable {α : Type} [Scalar α]

/-- The absence of a box. -/
def infinite : UnitCell α := ⟨Matrix3.zero, Matrix3.zero, Matrix3.zero, .infinite⟩

/-- Entries below `10 ^ (-places)` in magnitude. -/
def isBelow (places : Nat) (x : α) : Bool := Scalar.lt (Scalar.abs x) (Scalar.decimal 1 places)

/-- The cell with the given vectors. A matrix of zeros is the infinite cell; any other one needs a
positive determinant. -/
def ofMatrix (m : Matrix3 α) : Except Error (UnitCell α) :=
  if m.toList.all (isBelow 12) then .ok infinite
  else
    let determinant := m.determinant
    if Scalar.le determinant (Scalar.decimal 1 6) then
      .error (.parameter (.cellDeterminant (Scalar.text determinant)))
    else
      let shape := if m.offDiagonal.all (isBelow 6) then .orthorhombic else .triclinic
      m.transposed.inverse.map fun inverse => ⟨m, m.transposed, inverse, shape⟩

/-- A length that a cell may have. -/
def isLength (x : α) : Bool := Scalar.lt Scalar.zero x

/-- The cell with vectors of the given lengths along the axes. -/
def orthorhombic (lengths : Vector3 α) : Except Error (UnitCell α) :=
  if lengths.all isLength then
    let matrix := Matrix3.ofDiagonal lengths
    .ok ⟨matrix, matrix, Matrix3.ofDiagonal (lengths.map (Scalar.one / ·)), .orthorhombic⟩
  else .error (.panic .cellLengths)

/-- The cell with three vectors of one length along the axes. -/
def cubic (length : α) : Except Error (UnitCell α) := orthorhombic (Vector3.replicate length)

/-- An angle given in degrees. -/
def radians (degrees : α) : α := degrees * (Scalar.pi / Scalar.ofNat 180)

/-- Cell vectors from their lengths and angles: the first along x, the second in the plane of x
and y. -/
def triclinicMatrix (lengths angles : Vector3 α) : Matrix3 α :=
  let cosAlpha := Scalar.cos (radians angles.x)
  let cosBeta := Scalar.cos (radians angles.y)
  let sinGamma := Scalar.sin (radians angles.z)
  let cosGamma := Scalar.cos (radians angles.z)
  let c := lengths.z
  let cx := c * cosBeta
  let cy := c * (cosAlpha - cosBeta * cosGamma) / sinGamma
  let cz := Scalar.sqrt (c * c - cx * cx - cy * cy)
  { x := ⟨lengths.x, Scalar.zero, Scalar.zero⟩
    y := ⟨lengths.y * cosGamma, lengths.y * sinGamma, Scalar.zero⟩
    z := ⟨cx, cy, cz⟩ }

/-- The cell with vectors of the given lengths, and the given angles in degrees between them. -/
def triclinic (lengths angles : Vector3 α) : Except Error (UnitCell α) :=
  if lengths.all isLength then
    match ofMatrix (triclinicMatrix lengths angles) with
    | .ok cell => .ok cell
    | .error (.panic cause) => .error (.panic cause)
    | .error e => .error (.panic (.triclinicCell e.message))
  else .error (.panic .cellLengths)

/-- Is there no box? -/
def isInfinite (cell : UnitCell α) : Bool := cell.shape == .infinite

/-- The volume, 0 for the infinite cell. -/
def volume (cell : UnitCell α) : α :=
  match cell.shape with
  | .infinite => Scalar.zero
  | .orthorhombic => cell.matrix.x.x * cell.matrix.y.y * cell.matrix.z.z
  | .triclinic => cell.matrix.determinant

/-- The distances between opposite faces, across each of the cell vectors. -/
def faceDistances (cell : UnitCell α) : Vector3 α :=
  if cell.isInfinite then Vector3.replicate Scalar.infinity
  else
    let (a, b, c) := (cell.matrix.x, cell.matrix.y, cell.matrix.z)
    let volume := cell.volume
    ⟨volume / (b.cross c).norm, volume / (c.cross a).norm, volume / (a.cross b).norm⟩

/-- Coordinates along the cell vectors. -/
def fractional (cell : UnitCell α) (v : Vector3 α) : Vector3 α := cell.toFractional.mulVector v

/-- The point with the given coordinates along the cell vectors. -/
def cartesian (cell : UnitCell α) (v : Vector3 α) : Vector3 α := cell.toCartesian.mulVector v

/-- Take whole cell vectors away from a vector, as many as `whole` says of each coordinate along
them. -/
def reduce (cell : UnitCell α) (whole : α → α) (v : Vector3 α) : Vector3 α :=
  match cell.shape with
  | .infinite => v
  | .orthorhombic =>
    v.zipWith (fun x length => x - whole (x / length) * length) cell.matrix.diagonal
  | .triclinic => cell.cartesian ((cell.fractional v).map fun x => x - whole x)

/-- The vector brought inside of the cell. -/
def wrap (cell : UnitCell α) (v : Vector3 α) : Vector3 α := cell.reduce Scalar.floor v

/-- The image of a vector with coordinates between -1/2 and 1/2 along the cell vectors. -/
def image (cell : UnitCell α) (v : Vector3 α) : Vector3 α := cell.reduce Scalar.round v

/-- The distance between two points, up to whole cell vectors. -/
def distance (cell : UnitCell α) (u v : Vector3 α) : α := (cell.image (v - u)).norm

end UnitCell

end Atomistic
