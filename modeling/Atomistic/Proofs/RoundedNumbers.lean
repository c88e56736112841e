import Atomistic.Proofs.CountedBins
import Mathlib.Algebra.Order.Field.Power

/-!
# Rounded numbers

A finite floating-point number stands for a whole number times a power of two. A result that has
a significand and an exponent in the right range is stored as it is and read back unchanged, and
finite numbers compare as what they stand for.
-/

namespace Atomistic.Binary64

open Float.Model UnpackedFloat

/-! ### Values -/

/-- A significand and an exponent that a finite number is stored with. -/
structure Stored (m : Nat) (e : Int) : Prop where
  pos : 0 < m
  small : m < 2 * exponentUnit
  normal : exponentUnit ≤ m ∨ e = -1074
  least : -1074 ≤ e
  most : e ≤ 971

/-- The rational number that a finite result stands for. -/
inductive Valued : UnpackedFloat → ℚ → Prop where
  | zero (s : Sign) : Valued (.zero s) 0
  | finite (s : Sign) {m : Nat} {e : Int} (stored : Stored m e) :
    Valued (.finite s m e stored.pos) (s.apply m * 2 ^ e)

/-- The rational number that a floating-point number stands for. -/
def StandsFor (x : Float) (v : ℚ) : Prop := Valued x.toModel.unpack v

theorem two_zpow_pos (e : Int) : (0 : ℚ) < 2 ^ e := zpow_pos two_pos e

theorem apply_positive (m : Nat) : ((Sign.positive.apply m : Int) : ℚ) = m := Int.cast_natCast m

theorem apply_negative (m : Nat) : ((Sign.negative.apply m : Int) : ℚ) = -m := by
  rw [Sign.apply, Int.cast_neg, Int.cast_natCast]

theorem abs_apply (s : Sign) (m : Nat) : |((s.apply m : Int) : ℚ)| = m := by
  cases s with
  | positive => rw [apply_positive, Nat.abs_cast]
  | negative => rw [apply_negative, abs_neg, Nat.abs_cast]

/-! ### Bit patterns -/

/-- The bit pattern with the given fields. -/
structure Fields (b : BitVec Format.binary64.numBits) (s : Sign) (e : BitVec 11) (m : BitVec 52) :
    Prop where
  sign : Sign.ofBitVec (unpackSign b) = s
  exponent : unpackExponent b = e
  mantissa : unpackMantissa b = m

theorem fields_packComponents (s : Sign) (e : BitVec 11) (m : BitVec 52) :
    Fields (packComponents Format.binary64 s e m) s e m where
  sign := by
    change Sign.ofBitVec ((s.toBitVec ++ e ++ m).extractLsb' 63 1) = s
    rw [BitVec.extractLsb'_append_eq_of_le (by omega),
      BitVec.extractLsb'_append_eq_of_le (by omega)]
    cases s <;> rfl
  exponent := unpackExponent_packComponents
  mantissa := unpackMantissa_packComponents

theorem toNat_lead (m : BitVec 52) : (1#1 ++ m).toNat = exponentUnit + m.toNat := by
  rw [BitVec.toNat_append, ← Nat.shiftLeft_add_eq_or_of_lt m.isLt]
  rfl

namespace Fields

variable {b : BitVec Format.binary64.numBits} {s : Sign} {e : BitVec 11} {m : BitVec 52} {n : Nat}
  {f : Int} {pos : 0 < n}

/-- The leading one of a significand is not written. -/
theorem unpack_normal (h : Fields b s e m) (some : e ≠ 0#_) (not_whole : e ≠ -1#_)
    (significand : n = exponentUnit + m.toNat) (exponent : f = e.toNat - 1075) :
    UnpackedFloat.unpack Format.binary64 b = .finite s n f pos := by
  obtain ⟨rfl, rfl, rfl⟩ := h
  obtain rfl : n = (1#1 ++ unpackMantissa b).toNat := significand.trans (toNat_lead _).symm
  subst exponent
  unfold UnpackedFloat.unpack
  dsimp only
  rw [if_neg not_whole, if_neg some]
  rfl

/-- The least exponent is written as zero. -/
theorem unpack_subnormal (h : Fields b s 0#_ m) (some : m ≠ 0#_) (significand : n = m.toNat)
    (exponent : f = -1074) : UnpackedFloat.unpack Format.binary64 b = .finite s n f pos := by
  obtain ⟨rfl, least, rfl⟩ := h
  subst significand exponent
  have not_whole : unpackExponent b ≠ -1#_ := by
    rw [least]
    decide
  have lowest : ((unpackExponent b).toNat : Int) - (1023 + 52) + 1 = -1074 := by
    rw [least]
    rfl
  unfold UnpackedFloat.unpack
  dsimp only
  rw [if_neg not_whole, if_pos least, dif_neg some]
  exact congrArg (fun f => UnpackedFloat.finite _ _ f _) lowest

end Fields

/-- A finite result is written with the exponent above its least one, or as a subnormal number. -/
theorem Stored.pack_eq {m : Nat} {e : Int} (stored : Stored m e) (s : Sign) :
    UnpackedFloat.pack Format.binary64 (.finite s m e stored.pos) =
      if exponentUnit ≤ m then packComponents Format.binary64 s
          (BitVec.ofNat 11 (e + 1075).toNat) (BitVec.ofNat 52 m)
        else packComponents Format.binary64 s 0#11 (BitVec.ofNat 52 m) := by
  obtain ⟨pos, small, normal, least, most⟩ := stored
  have fits : ¬ 2 ^ Format.binary64.exponentBits ≤ (e + Format.binary64.exponentBias
      + Format.binary64.mantissaBitsWithoutImplicit).toNat + 1 := by
    change ¬ 2048 ≤ (e + 1023 + 52).toNat + 1
    omega
  have unit : exponentUnit = 2 ^ 52 := rfl
  have digits : m.log2 + 1 = Format.binary64.mantissaBits ↔ exponentUnit ≤ m := by
    change m.log2 + 1 = 52 + 1 ↔ _
    rw [Nat.add_right_cancel_iff, Nat.log2_eq_iff pos.ne']
    omega
  have biased : e + Format.binary64.exponentBias + Format.binary64.mantissaBitsWithoutImplicit
      = e + 1075 := Int.add_assoc e 1023 52
  unfold UnpackedFloat.pack
  rw [if_neg fits, biased]
  by_cases large : exponentUnit ≤ m
  · rw [if_pos (digits.2 large), if_pos large]
  · rw [if_neg (mt digits.1 large), if_neg large]

/-- A finite result is stored as it is. -/
theorem unpack_pack {u : UnpackedFloat} {v : ℚ} (h : Valued u v) :
    UnpackedFloat.unpack Format.binary64 (UnpackedFloat.pack Format.binary64 u) = u := by
  cases h with
  | zero s => cases s <;> rfl
  | @finite s m e stored =>
    rw [stored.pack_eq]
    obtain ⟨pos, small, normal, least, most⟩ := stored
    have unit : exponentUnit = 2 ^ 52 := rfl
    by_cases large : exponentUnit ≤ m
    · -- the leading one is the digit that 52 bits have no room for
      have exponent : (BitVec.ofNat 11 (e + 1075).toNat).toNat = (e + 1075).toNat := by
        rw [BitVec.toNat_ofNat]
        omega
      have significand : (BitVec.ofNat 52 m).toNat = m - exponentUnit := by
        rw [BitVec.toNat_ofNat]
        omega
      rw [if_pos large]
      refine (fields_packComponents s _ _).unpack_normal (fun none => ?_) (fun whole => ?_)
        (by omega) (by omega)
      · rw [none, BitVec.toNat_zero] at exponent
        omega
      · have : (-1#11).toNat = 2047 := rfl
        rw [whole] at exponent
        omega
    · have significand : (BitVec.ofNat 52 m).toNat = m := by
        rw [BitVec.toNat_ofNat]
        omega
      rw [if_neg large]
      refine (fields_packComponents s _ _).unpack_subnormal (fun none => ?_) significand.symm
        (normal.resolve_left large)
      rw [none, BitVec.toNat_zero] at significand
      omega

/-- A finite result of an operation is the one that is read back. -/
theorem standsFor_ofModel {u : UnpackedFloat} {v : ℚ} (h : Valued u v) :
    StandsFor (.ofModel (Float.Model.pack u)) v := by
  have kept : UnpackedFloat.unpack Format.binary64 (UnpackedFloat.pack Format.binary64 u) = u :=
    unpack_pack h
  change Valued (UnpackedFloat.unpack Format.binary64 (UnpackedFloat.pack Format.binary64 u)) v
  rw [kept]
  exact h

theorem Measures.valued_or_infinity {u : UnpackedFloat} {s : Sign} {k : Nat}
    (measured : Measures u s k) : (∃ v, Valued u v) ∨ u = .infinity s := by
  cases measured with
  | zero => exact .inl ⟨_, .zero s⟩
  | infinity => exact .inr rfl
  | finite pos small normal bounded =>
    exact .inl ⟨_, .finite s ⟨pos, small, normal.imp_right (by omega), by omega, by omega⟩⟩

/-- What stands for no rational number is infinite or no number at all. -/
theorem standsFor_cases (x : Float) : (∃ a, StandsFor x a) ∨
    x.toModel.unpack = .notANumber ∨ ∃ s, x.toModel.unpack = .infinity s := by
  by_cases number : x.toModel.unpack = .notANumber
  · exact .inr (.inl number)
  · exact (measures_unpack (bits x) number).valued_or_infinity.imp_right fun h => .inr ⟨_, h⟩

/-! ### Comparisons -/

/-- A larger exponent makes up for any significand. -/
theorem scaled_lt {m n : Nat} {e f : Int} (hm : Stored m e) (hn : Stored n f) (less : e < f) :
    (m : ℚ) * 2 ^ e < n * 2 ^ f := by
  have large : exponentUnit ≤ n := hn.normal.resolve_right (by have := hm.least; omega)
  have small : (m : ℚ) < 2 * exponentUnit := by exact_mod_cast hm.small
  calc (m : ℚ) * 2 ^ e
      < 2 * exponentUnit * 2 ^ e := mul_lt_mul_of_pos_right small (two_zpow_pos e)
    _ = exponentUnit * 2 ^ (e + 1) := by
      rw [zpow_add_one₀ two_ne_zero]
      ring
    _ ≤ n * 2 ^ f := mul_le_mul (Nat.cast_le.2 large) (zpow_le_zpow_right₀ one_le_two less)
        (two_zpow_pos _).le (Nat.cast_nonneg n)

/-- Exponents are compared before significands. -/
theorem compare_scaled {m n : Nat} {e f : Int} (hm : Stored m e) (hn : Stored n f) :
    (compare e f).then (compare m n) = compare ((m : ℚ) * 2 ^ e) (n * 2 ^ f) := by
  rcases lt_trichotomy e f with less | rfl | more
  · rw [compare_lt_iff_lt.2 less]
    exact (compare_lt_iff_lt.2 (scaled_lt hm hn less)).symm
  · rw [compare_eq_iff_eq.2 rfl]
    rcases lt_trichotomy m n with less | rfl | more
    · rw [compare_lt_iff_lt.2 less]
      exact (compare_lt_iff_lt.2
        (mul_lt_mul_of_pos_right (Nat.cast_lt.2 less) (two_zpow_pos e))).symm
    · rw [compare_eq_iff_eq.2 rfl]
      exact (compare_eq_iff_eq.2 rfl).symm
    · rw [compare_gt_iff_gt.2 more]
      exact (compare_gt_iff_gt.2
        (mul_lt_mul_of_pos_right (Nat.cast_lt.2 more) (two_zpow_pos e))).symm
  · rw [compare_gt_iff_gt.2 more]
    exact (compare_gt_iff_gt.2 (scaled_lt hn hm more)).symm

namespace Stored

variable {m : Nat} {e : Int} (stored : Stored m e)
include stored

theorem scaled_pos : (0 : ℚ) < m * 2 ^ e := mul_pos (Nat.cast_pos.2 stored.pos) (two_zpow_pos e)

theorem positive_pos : (0 : ℚ) < (Sign.positive.apply m : Int) * 2 ^ e := by
  rw [apply_positive]
  exact stored.scaled_pos

theorem negative_neg : ((Sign.negative.apply m : Int) : ℚ) * 2 ^ e < 0 := by
  rw [apply_negative, neg_mul]
  exact neg_neg_of_pos stored.scaled_pos

end Stored

theorem compare_neg (a b : ℚ) : compare (-a) (-b) = (compare a b).swap := by
  rcases lt_trichotomy a b with less | rfl | more
  · rw [compare_lt_iff_lt.2 less]
    exact compare_gt_iff_gt.2 (neg_lt_neg less)
  · rw [compare_eq_iff_eq.2 rfl, compare_eq_iff_eq.2 rfl]
    rfl
  · rw [compare_gt_iff_gt.2 more]
    exact compare_lt_iff_lt.2 (neg_lt_neg more)

/-- Finite results compare as what they stand for. -/
theorem Valued.compare_eq {u v : UnpackedFloat} {a b : ℚ} (hu : Valued u a) (hv : Valued v b) :
    u.compare v = some (compare a b) := by
  cases hu with
  | zero s =>
    cases hv with
    | zero => exact congrArg some (compare_eq_iff_eq.2 rfl).symm
    | finite t hn =>
      cases t with
      | positive => exact congrArg some (compare_lt_iff_lt.2 hn.positive_pos).symm
      | negative => exact congrArg some (compare_gt_iff_gt.2 hn.negative_neg).symm
  | finite s hm =>
    cases hv with
    | zero =>
      cases s with
      | positive => exact congrArg some (compare_gt_iff_gt.2 hm.positive_pos).symm
      | negative => exact congrArg some (compare_lt_iff_lt.2 hm.negative_neg).symm
    | finite t hn =>
      have scaled := compare_scaled hm hn
      cases s with
      | positive =>
        cases t with
        | positive =>
          rw [apply_positive, apply_positive, ← scaled]
          rfl
        | negative =>
          have more := hn.negative_neg.trans hm.positive_pos
          exact congrArg some (compare_gt_iff_gt.2 more).symm
      | negative =>
        cases t with
        | positive =>
          have less := hm.negative_neg.trans hn.positive_pos
          exact congrArg some (compare_lt_iff_lt.2 less).symm
        | negative =>
          rw [apply_negative, apply_negative, neg_mul, neg_mul, compare_neg, ← scaled]
          rfl

section Comparisons

variable {x y : Float} {a b : ℚ} (hx : StandsFor x a) (hy : StandsFor y b)
include hx hy

theorem comparison_of_standsFor : comparison x y = some (compare a b) := hx.compare_eq hy

theorem lt_iff_of_standsFor : Scalar.lt x y = true ↔ a < b := by
  rw [lt_eq, comparison_of_standsFor hx hy, beq_iff_eq, Option.some.injEq, compare_lt_iff_lt]

theorem le_iff_of_standsFor : Scalar.le x y = true ↔ a ≤ b := by
  rw [le_eq, comparison_of_standsFor hx hy, Option.any_some, ← Ordering.ne_gt_iff_isLE]
  exact compare_le_iff_le

end Comparisons

theorem Valued.abs {u : UnpackedFloat} {a : ℚ} (hu : Valued u a) : Valued u.abs |a| := by
  cases hu with
  | zero =>
    rw [abs_zero]
    exact .zero .positive
  | @finite s m e stored =>
    have magnitude : |((s.apply m : Int) : ℚ) * 2 ^ e| = (Sign.positive.apply m : Int) * 2 ^ e := by
      rw [abs_mul, abs_of_pos (two_zpow_pos e), abs_apply, apply_positive]
    rw [magnitude]
    exact .finite .positive stored

theorem standsFor_abs {x : Float} {a : ℚ} (hx : StandsFor x a) : StandsFor (Scalar.abs x) |a| :=
  standsFor_ofModel (Valued.abs hx)

/-- What is not above a finite number in magnitude is finite. -/
theorem exists_standsFor_of_le {x y : Float} {b : ℚ} (hy : StandsFor y b)
    (below : Scalar.le (Scalar.abs x) y = true) : ∃ a, StandsFor x a ∧ |a| ≤ b := by
  have magnitude : (Scalar.abs x).toModel = Float.Model.pack x.toModel.unpack.abs := rfl
  rcases standsFor_cases x with ⟨a, hx⟩ | special
  · exact ⟨a, hx, (le_iff_of_standsFor (standsFor_abs hx) hy).1 below⟩
  · exfalso
    rw [le_eq, comparison, magnitude] at below
    unfold StandsFor at hy
    generalize y.toModel.unpack = v at hy below
    rcases special with none | ⟨s, infinite⟩
    · rw [none] at below
      cases below
    · have positive : (UnpackedFloat.infinity s).abs = .infinity .positive := rfl
      have kept : (Float.Model.pack (.infinity .positive)).unpack = .infinity .positive := rfl
      rw [infinite, positive, kept] at below
      cases hy <;> cases below

end Atomistic.Binary64
