import Atomistic.Scalar.Binary64
import Mathlib.Data.List.Sort
import Mathlib.Order.Compare
import Mathlib.Tactic.Ring

/-!
# The order of floating-point numbers

Distances are sorted by the order of their bit patterns. It is an order on all floating-point numbers,
those included that are not numbers and both zeros, so sorting has only one result. Numbers compare
as their magnitudes with a sign do, where the magnitude is read off the bit pattern: exponent and
fraction, one behind the other, are counted together. So the order of bit patterns extends that of
numbers.
-/

namespace Atomistic.Binary64

open Float.Model UnpackedFloat

/-! ### Magnitudes -/

/-- A number with its sign and its magnitude. The significand of normal numbers has a leading one, and
only the least exponent has significands without it. -/
inductive Measures : UnpackedFloat → Sign → Nat → Prop where
  | zero (s : Sign) : Measures (.zero s) s 0
  | finite {s : Sign} {m e : Nat} (pos : 0 < m) (small : m < 2 * exponentUnit)
    (normal : exponentUnit ≤ m ∨ e = 0) (bounded : e ≤ 2045) :
    Measures (.finite s m ((e : Int) - 1074) pos) s (e * exponentUnit + m)
  | infinity (s : Sign) : Measures (.infinity s) s (2047 * exponentUnit)

theorem measures_finite {s : Sign} {m e k : Nat} {f : Int} {pos : 0 < m} (exponent : f = (e : Int) - 1074)
    (magnitude : k = e * exponentUnit + m) (small : m < 2 * exponentUnit)
    (normal : exponentUnit ≤ m ∨ e = 0) (bounded : e ≤ 2045) :
    Measures (.finite s m f pos) s k := by
  subst exponent magnitude
  exact .finite pos small normal bounded

/-- The magnitude with its sign. -/
def signed : Sign → Nat → Int
  | .positive, m => m
  | .negative, m => -m

/-- Exponents are compared before significands. -/
theorem compare_exponents {m e n f : Nat} (small : m < 2 * exponentUnit)
    (small' : n < 2 * exponentUnit) (normal : exponentUnit ≤ m ∨ e = 0)
    (normal' : exponentUnit ≤ n ∨ f = 0) :
    (compare ((e : Int) - 1074) ((f : Int) - 1074)).then (compare m n)
      = compare (e * exponentUnit + m) (f * exponentUnit + n) := by
  simp only [exponentUnit] at small small' normal normal' ⊢
  rcases lt_trichotomy e f with less | rfl | more
  · rw [compare_lt_iff_lt.2 (by omega : (e : Int) - 1074 < f - 1074)]
    exact (compare_lt_iff_lt.2 (by omega)).symm
  · rw [compare_eq_iff_eq.2 rfl]
    rcases lt_trichotomy m n with less | rfl | more
    · rw [compare_lt_iff_lt.2 less]
      exact (compare_lt_iff_lt.2 (by omega)).symm
    · rw [compare_eq_iff_eq.2 rfl]
      exact (compare_eq_iff_eq.2 rfl).symm
    · rw [compare_gt_iff_gt.2 more]
      exact (compare_gt_iff_gt.2 (by omega)).symm
  · rw [compare_gt_iff_gt.2 (by omega : (f : Int) - 1074 < e - 1074)]
    exact (compare_gt_iff_gt.2 (by omega)).symm

theorem compare_positive (m n : Nat) :
    compare (signed .positive m) (signed .positive n) = compare m n := by
  rcases lt_trichotomy m n with less | rfl | more
  · rw [compare_lt_iff_lt.2 less]
    exact compare_lt_iff_lt.2 (Int.ofNat_lt.2 less)
  · rw [compare_eq_iff_eq.2 rfl, compare_eq_iff_eq.2 rfl]
  · rw [compare_gt_iff_gt.2 more]
    exact compare_gt_iff_gt.2 (Int.ofNat_lt.2 more)

theorem compare_negative (m n : Nat) :
    compare (signed .negative m) (signed .negative n) = (compare m n).swap := by
  rcases lt_trichotomy m n with less | rfl | more
  · rw [compare_lt_iff_lt.2 less]
    exact compare_gt_iff_gt.2 (Int.neg_lt_neg (Int.ofNat_lt.2 less))
  · rw [compare_eq_iff_eq.2 rfl, compare_eq_iff_eq.2 rfl]
    rfl
  · rw [compare_gt_iff_gt.2 more]
    exact compare_lt_iff_lt.2 (Int.neg_lt_neg (Int.ofNat_lt.2 more))

/-- The sign of the larger magnitude decides. -/
theorem compare_of_lt {m n : Nat} (s : Sign) (less : m < n) : ∀ t : Sign,
    compare (signed s m) (signed t n) = match t with
      | .positive => .lt
      | .negative => .gt
  | .positive => compare_lt_iff_lt.2 (by cases s <;> simp only [signed] <;> omega)
  | .negative => compare_gt_iff_gt.2 (by cases s <;> simp only [signed] <;> omega)

theorem compare_of_gt {m n : Nat} (t : Sign) (more : n < m) : ∀ s : Sign,
    compare (signed s m) (signed t n) = match s with
      | .positive => .gt
      | .negative => .lt
  | .positive => compare_gt_iff_gt.2 (by cases t <;> simp only [signed] <;> omega)
  | .negative => compare_lt_iff_lt.2 (by cases t <;> simp only [signed] <;> omega)

/-- Numbers compare as their magnitudes with the sign. -/
theorem compare_eq {u v : UnpackedFloat} {s t : Sign} {m n : Nat} (hu : Measures u s m)
    (hv : Measures v t n) : u.compare v = some (compare (signed s m) (signed t n)) := by
  have unit : exponentUnit = 4503599627370496 := rfl
  cases hu with
  | zero =>
    cases hv with
    | zero => cases s <;> cases t <;> rfl
    | infinity =>
      rw [compare_of_lt s (by omega) t]
      cases t <;> rfl
    | finite pos small normal bounded =>
      rw [compare_of_lt s (by omega) t]
      cases t <;> rfl
  | infinity =>
    cases hv with
    | zero =>
      rw [compare_of_gt t (by omega) s]
      cases s <;> rfl
    | infinity => cases s <;> cases t <;> rfl
    | finite pos small normal bounded =>
      rw [compare_of_gt t (by rw [unit] at *; omega) s]
      cases s <;> rfl
  | @finite s m e pos small normal bounded =>
    cases hv with
    | zero =>
      rw [compare_of_gt t (by omega) s]
      cases s <;> rfl
    | infinity =>
      rw [compare_of_lt s (by rw [unit] at *; omega) t]
      cases s <;> cases t <;> rfl
    | @finite t n f pos' small' normal' bounded' =>
      have exponents := compare_exponents small small' normal normal'
      cases s with
      | positive =>
        cases t with
        | positive =>
          rw [compare_positive, ← exponents]
          rfl
        | negative => exact congrArg some (compare_gt_iff_gt.2 (by simp only [signed]; omega)).symm
      | negative =>
        cases t with
        | positive => exact congrArg some (compare_lt_iff_lt.2 (by simp only [signed]; omega)).symm
        | negative =>
          rw [compare_negative, ← exponents]
          rfl

/-! ### Bit patterns -/

section Fields

variable (b : BitVec Format.binary64.numBits)

theorem toNat_unpackMantissa : (unpackMantissa b).toNat = b.toNat % exponentUnit := by
  simp [unpackMantissa, exponentUnit]

theorem toNat_unpackExponent : (unpackExponent b).toNat = b.toNat / exponentUnit % 2048 := by
  simp [unpackExponent, exponentUnit, Nat.shiftRight_eq_div_pow]

theorem ofBitVec_unpackSign : Sign.ofBitVec (unpackSign b) =
    if b.toNat < signUnit then .positive else .negative := by
  have bounded : b.toNat < 2 * signUnit := b.isLt
  have value : (unpackSign b).toNat = b.toNat / signUnit % 2 := by
    change (b.extractLsb 63 63).toNat = _
    rw [BitVec.extractLsb_toNat, Nat.shiftRight_eq_div_pow]
    rfl
  have positive : unpackSign b = 0#1 ↔ b.toNat < signUnit := by
    rw [← BitVec.toNat_inj, value, BitVec.toNat_zero]
    simp only [signUnit] at bounded ⊢
    omega
  simp only [Sign.ofBitVec, positive]

/-- A bit pattern has a magnitude, unless it stands for no number. -/
theorem measures_unpack (number : UnpackedFloat.unpack Format.binary64 b ≠ .notANumber) :
    Measures (UnpackedFloat.unpack Format.binary64 b) (Sign.ofBitVec (unpackSign b))
      (b.toNat % signUnit) := by
  have fields : b.toNat % signUnit
      = (unpackExponent b).toNat * exponentUnit + (unpackMantissa b).toNat := by
    rw [toNat_unpackMantissa, toNat_unpackExponent]
    simp only [exponentUnit, signUnit]
    omega
  have below : (unpackMantissa b).toNat < exponentUnit := (unpackMantissa b).isLt
  have small : (unpackExponent b).toNat < 2048 := (unpackExponent b).isLt
  rw [fields]
  unfold UnpackedFloat.unpack at number ⊢
  dsimp only at number ⊢
  generalize Sign.ofBitVec (unpackSign b) = s at number ⊢
  by_cases special : unpackExponent b = -1#_
  · rw [if_pos special] at number ⊢
    have whole : (unpackExponent b).toNat = 2047 := by rw [special]; rfl
    by_cases none : unpackMantissa b = 0#_
    · rw [if_pos none, whole, none]
      exact .infinity s
    · rw [if_neg none] at number
      exact absurd rfl number
  · rw [if_neg special]
    have not_whole : (unpackExponent b).toNat ≠ 2047 := fun h =>
      special (BitVec.eq_of_toNat_eq (h.trans rfl))
    by_cases least : unpackExponent b = 0#_
    · rw [if_pos least]
      have none : (unpackExponent b).toNat = 0 := by rw [least]; rfl
      by_cases empty : unpackMantissa b = 0#_
      · rw [dif_pos empty, none, empty]
        exact .zero s
      · rw [dif_neg empty, none]
        exact measures_finite rfl rfl (by omega) (.inr rfl) (Nat.zero_le _)
    · rw [if_neg least]
      have some : (unpackExponent b).toNat ≠ 0 := fun h =>
        least (BitVec.eq_of_toNat_eq (h.trans rfl))
      have lead : (1#1 ++ unpackMantissa b).toNat = exponentUnit + (unpackMantissa b).toNat := by
        rw [BitVec.toNat_append, ← Nat.shiftLeft_add_eq_or_of_lt (unpackMantissa b).isLt]
        rfl
      refine measures_finite (e := (unpackExponent b).toNat - 1) ?_ ?_ ?_ ?_ ?_
      · simp [Format.exponentBias]
        omega
      · rw [lead]
        simp only [exponentUnit]
        omega
      · rw [lead]
        omega
      · exact .inl (by omega)
      · omega

end Fields

/-! ### Comparisons -/

/-- The bit pattern of a number. -/
def bits (x : Float) : BitVec Format.binary64.numBits := x.toModel.toBits.toBitVec

/-- The magnitude of a number, with its sign. -/
def measure (x : Float) : Int :=
  signed (Sign.ofBitVec (unpackSign (bits x))) ((bits x).toNat % signUnit)

/-- How two numbers compare, if both of them are numbers. -/
def comparison (x y : Float) : Option Ordering := x.toModel.unpack.compare y.toModel.unpack

variable {x y z : Float}

/-- Bit patterns are ordered by the magnitude with its sign, and by the sign itself for zeros. -/
theorem orderKey_eq (x : Float) :
    0 ≤ measure x ∧ orderKey x = measure x ∨ measure x ≤ 0 ∧ orderKey x = measure x - 1 := by
  have bounded : (bits x).toNat < 2 * signUnit := (bits x).isLt
  have key : orderKey x = if (bits x).toNat < signUnit then ((bits x).toNat : Int)
    else (signUnit : Int) - 1 - (bits x).toNat := rfl
  rw [key, measure, ofBitVec_unpackSign]
  by_cases small : (bits x).toNat < signUnit
  · rw [if_pos small, if_pos small, Nat.mod_eq_of_lt small]
    exact .inl ⟨Int.natCast_nonneg _, rfl⟩
  · rw [if_neg small, if_neg small]
    simp only [signed, signUnit] at *
    omega

theorem lt_eq (x y : Float) : Scalar.lt x y = (comparison x y == some .lt) := by
  change decide (decide ((comparison x y == some .lt) = true) = true) = _
  rw [Bool.decide_eq_true, Bool.decide_eq_true]

theorem le_eq (x y : Float) : Scalar.le x y = (comparison x y).any (·.isLE) := by
  change decide (decide ((comparison x y).any (·.isLE) = true) = true) = _
  rw [Bool.decide_eq_true, Bool.decide_eq_true]

theorem isNumber_eq (x : Float) : Scalar.isNumber x = (comparison x x == some .eq) := rfl

/-- What is no number compares with nothing, and numbers compare as their magnitudes. -/
theorem comparison_eq (x y : Float) : comparison x y =
    if Scalar.isNumber x && Scalar.isNumber y then some (compare (measure x) (measure y))
    else none := by
  have measured {x y : Float} (hx : x.toModel.unpack ≠ .notANumber)
      (hy : y.toModel.unpack ≠ .notANumber) :
      comparison x y = some (compare (measure x) (measure y)) :=
    compare_eq (measures_unpack (bits x) hx) (measures_unpack (bits y) hy)
  have number (x : Float) : Scalar.isNumber x = true ↔ x.toModel.unpack ≠ .notANumber := by
    rw [isNumber_eq]
    constructor
    · intro equal none
      rw [comparison, none] at equal
      cases equal
    · intro some
      rw [measured some some, compare_eq_iff_eq.2 rfl]
      rfl
  split
  · next both =>
    rw [Bool.and_eq_true, number, number] at both
    exact measured both.1 both.2
  · next not_both =>
    rw [Bool.and_eq_true, number, number, not_and_or, not_not, not_not] at not_both
    rcases not_both with none | none
    · rw [comparison, none]
      rfl
    · rw [comparison, none]
      cases x.toModel.unpack <;> rfl

/-- What is smaller or larger is a number. -/
theorem isNumber_of_lt (h : Scalar.lt x y = true) :
    Scalar.isNumber x = true ∧ Scalar.isNumber y = true := by
  rw [lt_eq, comparison_eq] at h
  split at h
  · next both => exact Bool.and_eq_true _ _ ▸ both
  · cases h

theorem le_iff (hx : Scalar.isNumber x = true) (hy : Scalar.isNumber y = true) :
    Scalar.le x y = true ↔ measure x ≤ measure y := by
  rw [le_eq, comparison_eq, hx, hy]
  simp [Std.isLE_compare]

theorem totalLe_iff : Scalar.totalLe x y = true ↔ orderKey x ≤ orderKey y := decide_eq_true_iff

/-- The order of bit patterns extends the order of numbers. -/
theorem le_of_totalLe (hx : Scalar.isNumber x = true) (hy : Scalar.isNumber y = true)
    (h : Scalar.totalLe x y = true) : Scalar.le x y = true := by
  rw [totalLe_iff] at h
  rw [le_iff hx hy]
  have := orderKey_eq x
  have := orderKey_eq y
  omega

theorem le_of_lt (h : Scalar.lt x y = true) : Scalar.le x y = true := by
  rw [lt_eq, beq_iff_eq] at h
  rw [le_eq, h]
  rfl

/-! ### Sorting -/

theorem orderKey_injective : Function.Injective orderKey := by
  intro x y same
  have patterns : x.toBits.toNat = y.toBits.toNat := by
    have hx : x.toBits.toNat < 2 * signUnit := x.toBits.toNat_lt
    have hy : y.toBits.toNat < 2 * signUnit := y.toBits.toNat_lt
    simp only [orderKey] at same
    split at same <;> split at same <;> omega
  cases x with
  | ofModel v =>
    cases y with
    | ofModel w =>
      congr 1
      cases v
      cases w
      congr 1
      exact UInt64.toNat_inj.1 patterns

/-- Sorted distances are in order. -/
theorem pairwise_mergeSort (l : List Float) :
    (l.mergeSort Scalar.totalLe).Pairwise fun x y => Scalar.totalLe x y = true := by
  refine List.pairwise_mergeSort ?_ ?_ l
  · intro x y z hxy hyz
    rw [totalLe_iff] at *
    exact hxy.trans hyz
  · intro x y
    rw [Bool.or_eq_true, totalLe_iff, totalLe_iff]
    exact le_total _ _

/-- There is one order of the elements of a list. -/
theorem eq_of_perm_of_pairwise {l l' : List Float} (same : l.Perm l')
    (hl : l.Pairwise fun x y => Scalar.totalLe x y = true)
    (hl' : l'.Pairwise fun x y => Scalar.totalLe x y = true) : l = l' := by
  refine same.eq_of_pairwise ?_ hl hl'
  intro x y _ _ hxy hyx
  rw [totalLe_iff] at hxy hyx
  exact orderKey_injective (le_antisymm hxy hyx)

/-- Lists with the same elements are sorted to the same list. -/
theorem mergeSort_eq_of_perm {l l' : List Float} (same : l.Perm l') :
    l.mergeSort Scalar.totalLe = l'.mergeSort Scalar.totalLe := by
  have sorted := (List.mergeSort_perm l Scalar.totalLe).trans
    (same.trans (List.mergeSort_perm l' Scalar.totalLe).symm)
  exact eq_of_perm_of_pairwise sorted (pairwise_mergeSort l) (pairwise_mergeSort l')

end Atomistic.Binary64
