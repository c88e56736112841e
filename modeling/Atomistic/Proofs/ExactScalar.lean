import Mathlib.Algebra.Order.Field.Basic
import Mathlib.Algebra.Order.Floor.Ring
import Atomistic.Scalar

/-!
# Exact arithmetic

The formulas of geometry over a field in which nothing is rounded: an ordered field with whole parts
and square roots. Little is asked of the cube root, which only reduces numbers of bins, and nothing
of angles and of the way in which numbers are shown.
-/

namespace Atomistic

/-- An ordered field in which the formulas of geometry are exact. -/
class ExactField (α : Type) extends Field α, LinearOrder α, IsStrictOrderedRing α, FloorRing α where
  squareRoot : α → α
  squareRoot_nonneg : ∀ x, 0 ≤ squareRoot x
  squareRoot_mul_self : ∀ x, 0 ≤ x → squareRoot x * squareRoot x = x
  cubeRoot : α → α
  cubeRoot_le_one : ∀ x, 0 < x → x < 1 → cubeRoot x ≤ 1
  halfCircle : α
  noBound : α
  sine : α → α
  cosine : α → α
  shown : α → String

namespace ExactField

variable {α : Type} [ExactField α]

/-- The integer part, rounding toward zero. -/
def wholePart (x : α) : Int := if x < 0 then ⌈x⌉ else ⌊x⌋

instance (priority := low) toScalar : Scalar α where
  ofInt n := n
  decimal m k := m / 10 ^ k
  pi := halfCircle
  infinity := noBound
  lt x y := decide (x < y)
  le x y := decide (x ≤ y)
  eq x y := decide (x = y)
  isFinite _ := true
  abs x := |x|
  sqrt := squareRoot
  cbrt := cubeRoot
  sin := sine
  cos := cosine
  floor x := ⌊x⌋
  ceil x := ⌈x⌉
  trunc x := wholePart x
  round x := if x < 0 then ⌈x - 1 / 2⌉ else ⌊x + 1 / 2⌋
  toIntWithin lo hi x := max lo (min hi (wholePart x))
  totalLe x y := decide (x ≤ y)
  text := shown

/-! ### What the operations are -/

@[simp] theorem zero_eq : (Scalar.zero : α) = 0 := Int.cast_zero

@[simp] theorem one_eq : (Scalar.one : α) = 1 := Int.cast_one

@[simp] theorem ofNat_eq (n : Nat) : (Scalar.ofNat n : α) = n := Int.cast_natCast n

@[simp] theorem lt_eq_true {x y : α} : Scalar.lt x y = true ↔ x < y := decide_eq_true_iff

@[simp] theorem le_eq_true {x y : α} : Scalar.le x y = true ↔ x ≤ y := decide_eq_true_iff

theorem decimal_one (k : Nat) : (Scalar.decimal 1 k : α) = 1 / 10 ^ k :=
  congrArg (· / (10 : α) ^ k) Nat.cast_one

theorem decimal_pos {m : Nat} (positive : 0 < m) (k : Nat) : (0 : α) < Scalar.decimal m k := by
  have numerator : (0 : α) < m := Nat.cast_pos.2 positive
  exact div_pos numerator (pow_pos (by norm_num) k)

theorem isPositiveFinite_eq {x : α} (h : 0 < x) : Scalar.isPositiveFinite x = true := by
  have finite : Scalar.isFinite x = true := rfl
  rw [Scalar.isPositiveFinite, finite, zero_eq, Bool.and_true, lt_eq_true]
  exact h

theorem least_eq (x y : α) : Scalar.least x y = min x y := by
  have number : Scalar.isNumber x = true := decide_eq_true rfl
  rw [Scalar.least, number]
  by_cases h : y < x
  · simp [h, h.le]
  · simp [h, le_of_not_gt h]

theorem greatest_eq (x y : α) : Scalar.greatest x y = max x y := by
  have number : Scalar.isNumber x = true := decide_eq_true rfl
  rw [Scalar.greatest, number]
  by_cases h : x < y
  · simp [h, h.le]
  · simp [h, le_of_not_gt h]

/-! ### Whole parts -/

@[simp] theorem wholePart_intCast (n : Int) : wholePart (n : α) = n := by
  rw [wholePart]
  split
  · exact Int.ceil_intCast n
  · exact Int.floor_intCast n

theorem wholePart_le {x : α} (h : 0 ≤ x) : (wholePart x : α) ≤ x := by
  rw [wholePart, if_neg h.not_gt]
  exact Int.floor_le x

/-- Integer parts are brought into bounds like any other integer. -/
theorem toIntWithin_intCast (lo hi n : Int) :
    Scalar.toIntWithin lo hi (n : α) = max lo (min hi n) :=
  congrArg (fun m => max lo (min hi m)) (wholePart_intCast n)

end ExactField

end Atomistic
