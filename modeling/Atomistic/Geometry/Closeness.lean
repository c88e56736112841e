import Atomistic.Geometry.Vector3
import Atomistic.Scalar.Binary64

/-!
# Approximate equality

Three ways for two numbers to be close: by their difference, by their difference relative to the
larger of them, and by the number of floating-point numbers between them. Vectors are close when
their coordinates are, one by one.
-/

namespace Atomistic.Closeness

variable {α : Type} [Scalar α]

/-- The distance between two numbers, taken from the larger one. -/
def difference (x y : α) : α := if Scalar.lt y x then x - y else y - x

/-- The difference is at most `tolerance`. -/
def absolute (tolerance : α) (x y : α) : Bool := Scalar.le (difference x y) tolerance

/-- Is this an infinity, of either sign? -/
def isInfinite (x : α) : Bool := Scalar.isNumber x && !Scalar.isFinite x

/-- The difference is at most `tolerance`, or at most `ratio` times the larger magnitude. -/
def relative (tolerance ratio : α) (x y : α) : Bool :=
  if Scalar.eq x y then true
  else if isInfinite x || isInfinite y then false
  else
    let gap := Scalar.abs (x - y)
    if Scalar.le gap tolerance then true
    else
      let (a, b) := (Scalar.abs x, Scalar.abs y)
      Scalar.le gap ((if Scalar.lt a b then b else a) * ratio)

/-- At most `steps` floating-point numbers apart, on the same side of zero. -/
def byUnits (tolerance : Float) (steps : Nat) (x y : Float) : Bool :=
  if absolute tolerance x y then true
  else if x.isNaN || y.isNaN then false
  else
    let (a, b) := (x.toBits.toNat, y.toBits.toNat)
    (Binary64.parts x).negative == (Binary64.parts y).negative && max a b - min a b ≤ steps

/-- Closeness of vectors from closeness of coordinates. -/
def ofVectors (close : α → α → Bool) (u v : Vector3 α) : Bool :=
  (Vector3.zipWith close u v).all id

end Atomistic.Closeness
