import Atomistic.Proofs.GridShape
import Atomistic.Proofs.FloatOrder

/-!
# Counted bins

The number of bins in a direction is a scalar before it becomes a count. Whatever the extent of the
grid and the cutoff are, infinite or not numbers at all, one is taken for the number of bins unless
the computed one is larger. A floating-point number that is not below one has an integer part of one
at least, so there are bins in every direction also where numbers are rounded.
-/

namespace Atomistic

namespace Binary64

open Float.Model UnpackedFloat

/-! ### Integer parts -/

theorem mantissa_shiftRight (em : ExtendedMantissa) (n : Nat) :
    (em >>> n).mantissa = em.mantissa / 2 ^ n := by
  induction n with
  | zero => exact (Nat.div_one _).symm
  | succ n ih =>
    change (em >>> n).mantissa / 2 = _
    rw [ih, Nat.div_div_eq_div_mul, Nat.pow_succ]

/-- The integer part of a positive number, from its significand and exponent. -/
theorem roundToInt_positive (m : Nat) (e : Int) :
    roundToInt .positive m e = ((m * 2 ^ e.toNat / 2 ^ (-e).toNat : Nat) : Int) := by
  have shifted : roundToInt .positive m e
      = ((ExtendedMantissa.ofMantissaAndAccuracy (m <<< (e - 0).toNat) .exact
        >>> (0 - (e - (e - 0).toNat)).toNat).mantissa : Int) := rfl
  have right : (0 - (e - (e - 0).toNat)).toNat = (-e).toNat := by omega
  rw [shifted, mantissa_shiftRight, right, Int.sub_zero, Nat.shiftLeft_eq]
  rfl

theorem measure_one : measure (Scalar.one : Float) = 1023 * exponentUnit := by decide +kernel

theorem measure_zero : measure (Float.ofInt 0) = 0 := by decide +kernel

variable {z : Float}

/-- What is not below one is at least one. -/
theorem measure_of_not_lt (number : Scalar.isNumber z = true)
    (large : Scalar.lt z Scalar.one = false) : 1023 * (exponentUnit : Int) ≤ measure z := by
  have one : Scalar.isNumber (Scalar.one : Float) = true := by decide +kernel
  rw [lt_eq, comparison_eq, number, one, Bool.and_self, if_pos rfl] at large
  rw [← measure_one]
  by_contra less
  rw [compare_lt_iff_lt.2 (not_le.1 less)] at large
  cases large

theorem toNat_ofNatClamp (n : Nat) :
    (UInt64.ofNatClamp n).toNat = min n 0xFFFFFFFFFFFFFFFF := by
  unfold UInt64.ofNatClamp
  split
  · next small =>
    have below : n < 2 ^ 64 := small
    rw [UInt64.toNat_ofNatLT]
    omega
  · next large =>
    have above : ¬ n < 2 ^ 64 := large
    rw [UInt64.toNat_ofNatLT]
    change 0xFFFFFFFFFFFFFFFF = _
    omega

/-- What is a number is not the result that stands for none. -/
theorem unpack_ne_notANumber (number : Scalar.isNumber z = true) :
    z.toModel.unpack ≠ .notANumber := by
  intro none
  rw [isNumber_eq, comparison, none] at number
  cases number

/-- The integer part of a number that is at least one. -/
theorem one_le_toUInt64 (number : Scalar.isNumber z = true)
    (large : 1023 * (exponentUnit : Int) ≤ measure z) : 1 ≤ z.toUInt64.toNat := by
  have measured : Measures z.toModel.unpack _ _ :=
    measures_unpack (bits z) (unpack_ne_notANumber number)
  have whole : z.toUInt64
      = .ofNatClamp (z.toModel.unpack.toInt 0 0xFFFFFFFFFFFFFFFF).toNat := rfl
  suffices 1 ≤ z.toModel.unpack.toInt 0 0xFFFFFFFFFFFFFFFF by
    rw [whole, toNat_ofNatClamp]
    omega
  rw [measure] at large
  revert measured
  generalize (bits z).toNat % signUnit = magnitude at large
  generalize Sign.ofBitVec (unpackSign (bits z)) = s at large
  generalize z.toModel.unpack = u
  intro measured
  cases s with
  | negative =>
    simp only [signed, exponentUnit] at large
    omega
  | positive =>
    simp only [signed, exponentUnit] at large
    cases measured with
    | zero => omega
    | infinity => decide
    | @finite _ m e pos small normal bounded =>
      simp only [exponentUnit] at large small normal
      -- the significand has its leading one, and the exponent takes away less than its digits
      have leading : 2 ^ 52 ≤ m := by omega
      have fraction : (-((e : Int) - 1074)).toNat ≤ 52 := by omega
      change (1 : Int) ≤ roundToInt .positive m ((e : Int) - 1074)
      rw [roundToInt_positive]
      refine Int.ofNat_le.2 ((Nat.one_le_div_iff (Nat.two_pow_pos _)).2 ?_)
      calc 2 ^ (-((e : Int) - 1074)).toNat
          ≤ 2 ^ 52 := Nat.pow_le_pow_right two_pos fraction
        _ ≤ m := leading
        _ ≤ m * 2 ^ ((e : Int) - 1074).toNat := Nat.le_mul_of_pos_right _ (Nat.two_pow_pos _)

theorem one_le_toCount (number : Scalar.isNumber z = true)
    (large : Scalar.lt z Scalar.one = false) : 1 ≤ Scalar.toCount z := by
  have above := measure_of_not_lt number large
  have unit : (exponentUnit : Int) = 2 ^ 52 := rfl
  have zero : Scalar.isNumber (Float.ofInt 0) = true := by decide +kernel
  have nonzero : ¬ z ≤ Float.ofInt 0 := by
    intro less
    have := (le_iff number zero).1 (decide_eq_true less)
    rw [measure_zero] at this
    omega
  have nonneg : ¬ z < 0 := fun less =>
    nonzero (of_decide_eq_true (le_of_lt (decide_eq_true less)))
  have isNumber : z.isNaN = false := by
    have some := unpack_ne_notANumber number
    change z.toModel.unpack.isNaN = false
    generalize z.toModel.unpack = u at some
    cases u with
    | notANumber => exact absurd rfl some
    | _ => rfl
  have whole := one_le_toUInt64 number above
  change 1 ≤ (toIntWithin 0 0xFFFFFFFFFFFFFFFF z).toNat
  rw [toIntWithin, isNumber, if_neg Bool.false_ne_true, if_neg nonzero]
  by_cases saturated : z ≥ Float.ofInt 0xFFFFFFFFFFFFFFFF
  · rw [if_pos saturated]
    decide
  · rw [if_neg saturated, if_neg nonneg]
    dsimp only
    omega

end Binary64

/-! ### Grids -/

/-- Scalars with which a number of bins is never counted as none. -/
class CountsBins (α : Type) [Scalar α] : Prop where
  one_le_toCount : ∀ x : α, 1 ≤ Scalar.toCount (BinGrid.atLeastOne x)

instance : CountsBins Float where
  one_le_toCount x := by
    have one : 1 ≤ Scalar.toCount (Scalar.one : Float) := by decide +kernel
    rw [BinGrid.atLeastOne, Scalar.greatest]
    by_cases number : Scalar.isNumber (Scalar.trunc x) = true
    · rw [number, Bool.not_true, if_neg Bool.false_ne_true]
      by_cases small : Scalar.lt (Scalar.trunc x) Scalar.one = true
      · rw [if_pos small]
        exact one
      · rw [if_neg small]
        exact Binary64.one_le_toCount number (Bool.eq_false_of_not_eq_true small)
    · rw [if_pos (by simpa using number)]
      exact one

instance {α : Type} [ExactField α] : CountsBins α where
  one_le_toCount x := by
    rw [BinGrid.atLeastOne_eq, Scalar.toCount, ExactField.toIntWithin_intCast]
    omega

namespace BinGrid

variable {α : Type} [Scalar α]

/-- The number of bins in a direction is a whole part, or one. -/
theorem exists_atLeastOne (lengths : Vector3 α) (cutoff : α) (k : Direction) :
    ∃ x, (binCounts lengths cutoff).along k = atLeastOne x := by
  unfold binCounts
  dsimp only
  split <;>
  · rw [Vector3.along_map]
    exact ⟨_, rfl⟩

variable [CountsBins α]

/-- There is a bin at least in each direction. -/
theorem one_le_shape (positions : Array (Vector3 α)) (cell : UnitCell α) (cutoff : α)
    (k : Direction) : 1 ≤ (ofPositions positions cell cutoff).shape.along k := by
  obtain ⟨x, count⟩ := exists_atLeastOne (ofPositions positions cell cutoff).lengths cutoff k
  rw [shape_ofPositions, Vector3.along_map, count]
  exact CountsBins.one_le_toCount x

end BinGrid

end Atomistic
