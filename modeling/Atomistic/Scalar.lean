/-!
# Scalars

Positions, cells and descriptors are computed over a type of scalars. The formulas are written
once, in a fixed order of operations, over the operations of `Scalar`; binary floating point and
exact real arithmetic are two instances of it. Comparisons are Boolean because a floating-point
number may fail to compare with itself.
-/

namespace Atomistic

/-- The operations that geometry and descriptors are written with. -/
class Scalar (α : Type) extends Add α, Sub α, Mul α, Div α, Neg α where
  /-- The scalar nearest to an integer. -/
  ofInt : Int → α
  /-- The scalar nearest to `m / 10 ^ k`. -/
  decimal : (m k : Nat) → α
  /-- The ratio of a circle's circumference to its diameter. -/
  pi : α
  /-- The value that stands for "no bound". -/
  infinity : α
  lt : α → α → Bool
  le : α → α → Bool
  eq : α → α → Bool
  isFinite : α → Bool
  abs : α → α
  sqrt : α → α
  cbrt : α → α
  sin : α → α
  cos : α → α
  floor : α → α
  ceil : α → α
  /-- The integer part, rounding toward zero. -/
  trunc : α → α
  /-- The nearest integer, halves going away from zero. -/
  round : α → α
  /-- The integer part brought into `[lo, hi]`, and 0 for what is not a number. -/
  toIntWithin : (lo hi : Int) → α → Int
  /-- A total order that extends `le` on numbers. -/
  totalLe : α → α → Bool
  /-- How a scalar is written inside of messages. -/
  text : α → String

namespace Scalar

variable {α : Type} [Scalar α]

/-- The scalar 0. -/
def zero : α := ofInt 0

/-- The scalar 1. -/
def one : α := ofInt 1

/-- The scalar nearest to a natural number. -/
def ofNat (n : Nat) : α := ofInt n

/-- The distance from 1 to the next binary floating-point number, `2 ^ (-52)`. -/
def epsilon : α := one / ofInt 0x10000000000000

/-- Is this the value of a computation that has one? -/
def isNumber (x : α) : Bool := eq x x

/-- The smaller of two scalars, ignoring one that is not a number. -/
def least (x y : α) : α := if !isNumber x then y else if lt y x then y else x

/-- The larger of two scalars, ignoring one that is not a number. -/
def greatest (x y : α) : α := if !isNumber x then y else if lt x y then y else x

/-- The smallest number of a list, `infinity` when it holds none. -/
def lowest (xs : List α) : α :=
  match xs.filter isNumber with
  | [] => infinity
  | x :: rest => rest.foldl least x

/-- The largest number of a list, `-infinity` when it holds none. -/
def highest (xs : List α) : α :=
  match xs.filter isNumber with
  | [] => -infinity
  | x :: rest => rest.foldl greatest x

/-- The integer part as a 32-bit signed integer, saturating at both ends. -/
def toInt32 (x : α) : Int := toIntWithin (-0x80000000) 0x7FFFFFFF x

/-- The integer part as a 64-bit signed integer, saturating at both ends. -/
def toInt64 (x : α) : Int := toIntWithin (-0x8000000000000000) 0x7FFFFFFFFFFFFFFF x

/-- The integer part as a 64-bit count, saturating at both ends. -/
def toCount (x : α) : Nat := (toIntWithin 0 0xFFFFFFFFFFFFFFFF x).toNat

/-- A positive finite number, which is what a cutoff has to be. -/
def isPositiveFinite (x : α) : Bool := lt zero x && isFinite x

end Scalar

end Atomistic
