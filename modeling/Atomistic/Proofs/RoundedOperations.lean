import Atomistic.Proofs.RoundedNumbers

/-!
# Rounded operations

The result of an operation has as many digits as a significand, and none below the least exponent.
Dropping the others changes a number by less than the last digit that stays. When the exact result
is below `2 ^ n`, this digit is worth `2 ^ (n - 53)` at most, so that sums, differences and products
are that close to what they are of the numbers that the operands stand for.
-/

namespace Atomistic.Binary64

open Float.Model UnpackedFloat

/-! ### Signs -/

theorem apply_congr (s : Sign) {m n : Nat} {x y : ℚ} (same : (m : ℚ) * x = n * y) :
    ((s.apply m : Int) : ℚ) * x = (s.apply n : Int) * y := by
  cases s with
  | positive => rwa [apply_positive, apply_positive]
  | negative => rw [apply_negative, apply_negative, neg_mul, neg_mul, same]

theorem abs_apply_sub_apply (s : Sign) (m n : Nat) (x y : ℚ) :
    |((s.apply m : Int) : ℚ) * x - (s.apply n : Int) * y| = |(m : ℚ) * x - n * y| := by
  cases s with
  | positive => rw [apply_positive, apply_positive]
  | negative => rw [apply_negative, apply_negative, neg_mul, neg_mul, neg_sub_neg, abs_sub_comm]

theorem scaled_mul_two_pow (m : Nat) (e : Int) (k : Nat) :
    ((m * 2 ^ k : Nat) : ℚ) * 2 ^ (e - k) = m * 2 ^ e := by
  rw [Nat.cast_mul, Nat.cast_pow, mul_assoc, Nat.cast_two, ← zpow_natCast, ← zpow_add₀ two_ne_zero,
    add_sub_cancel]

/-- The same number, written with more digits. -/
theorem apply_mul_two_pow (s : Sign) (m : Nat) (e : Int) (k : Nat) :
    ((s.apply (m * 2 ^ k : Nat) : Int) : ℚ) * 2 ^ (e - k) = (s.apply m : Int) * 2 ^ e :=
  apply_congr s (scaled_mul_two_pow m e k)

theorem apply_neg (s : Sign) (z : Int) : (-s).apply z = -s.apply z := by
  cases s with
  | negative => exact (neg_neg z).symm
  | positive => rfl

theorem apply_mul (s t : Sign) (m n : Nat) :
    (s * t).apply (m * n : Nat) = s.apply m * t.apply n := by
  cases s with
  | negative =>
    cases t with
    | negative => exact (Int.neg_mul_neg m n).symm
    | positive => exact (Int.neg_mul m n).symm
  | positive =>
    cases t with
    | negative => exact (Int.mul_neg m n).symm
    | positive => rfl

/-! ### Dropped digits -/

/-- A whole number without its last `k` digits, rounded to nearest. -/
def dropped (m k : Nat) : Nat :=
  (ExtendedMantissa.ofMantissaAndAccuracy m .exact >>> k).roundedMantissa

theorem roundedMantissa_bounds (em : ExtendedMantissa) :
    em.mantissa ≤ em.roundedMantissa ∧ em.roundedMantissa ≤ em.mantissa + 1 := by
  obtain ⟨m, round, sticky⟩ := em
  cases round <;> cases sticky <;>
  · simp only [ExtendedMantissa.roundedMantissa, ExtendedMantissa.accuracy,
      Accuracy.roundToNearestEven]
    omega

theorem dropped_bounds (m k : Nat) : m / 2 ^ k ≤ dropped m k ∧ dropped m k ≤ m / 2 ^ k + 1 := by
  have bounds := roundedMantissa_bounds (ExtendedMantissa.ofMantissaAndAccuracy m .exact >>> k)
  rwa [mantissa_shiftRight] at bounds

/-- What digits are dropped is worth less than the last one of those that stay. -/
theorem abs_dropped_sub_le (m k : Nat) (e : Int) :
    |(dropped m k : ℚ) * 2 ^ (e + k) - m * 2 ^ e| ≤ 2 ^ (e + k) := by
  obtain ⟨low, high⟩ := dropped_bounds m k
  have step : 0 < 2 ^ k := Nat.two_pow_pos k
  have below : m ≤ dropped m k * 2 ^ k + 2 ^ k := by
    have := Nat.lt_div_mul_add step (a := m)
    have := Nat.mul_le_mul_right (2 ^ k) low
    omega
  have above : dropped m k * 2 ^ k ≤ m + 2 ^ k := by
    have := Nat.div_mul_le_self m (2 ^ k)
    have := Nat.mul_le_mul_right (2 ^ k) high
    rw [Nat.add_mul] at this
    omega
  have near : |(dropped m k : ℚ) * 2 ^ k - m| ≤ 2 ^ k := by
    rw [abs_le]
    constructor
    · have : (m : ℚ) ≤ dropped m k * 2 ^ k + 2 ^ k := by exact_mod_cast below
      linarith
    · have : (dropped m k : ℚ) * 2 ^ k ≤ m + 2 ^ k := by exact_mod_cast above
      linarith
  have split : (2 : ℚ) ^ (e + k) = 2 ^ k * 2 ^ e := by
    rw [zpow_add₀ two_ne_zero, zpow_natCast, mul_comm]
  calc |(dropped m k : ℚ) * 2 ^ (e + k) - m * 2 ^ e|
      = |(dropped m k : ℚ) * 2 ^ k - m| * 2 ^ e := by
        rw [split, ← mul_assoc, ← sub_mul, abs_mul, abs_of_pos (two_zpow_pos e)]
    _ ≤ 2 ^ k * 2 ^ e := mul_le_mul_of_nonneg_right near (two_zpow_pos e).le
    _ = 2 ^ (e + k) := split.symm

/-! ### Last digits -/

/-- The exponent of the last digit that a number keeps. -/
def lastDigit (m : Nat) (e : Int) : Int := max (m.log2 + 1 + e - 53) (-1074)

theorem targetExponent_eq (m : Nat) (e : Int) :
    Format.binary64.targetExponent (totalExponent m e) = lastDigit m e := rfl

/-- The last digit of a number below `2 ^ n`. -/
theorem lastDigit_le {m : Nat} {e n : Int} (pos : 0 < m) (below : (m : ℚ) * 2 ^ e < 2 ^ n)
    (least : -1021 ≤ n) : lastDigit m e ≤ n - 53 := by
  have lead : (2 : ℚ) ^ ((m.log2 : Int) + e) < 2 ^ n := by
    refine lt_of_le_of_lt ?_ below
    rw [zpow_add₀ two_ne_zero, zpow_natCast]
    refine mul_le_mul_of_nonneg_right ?_ (two_zpow_pos e).le
    exact_mod_cast Nat.log2_self_le pos.ne'
  have := (zpow_lt_zpow_iff_right₀ one_lt_two).1 lead
  rw [lastDigit]
  omega

/-- A significand that is at most one digit too long to be stored, with the exponent of its last
digit. -/
structure Carried (m : Nat) (e : Int) : Prop where
  small : m ≤ 2 * exponentUnit
  normal : exponentUnit ≤ m ∨ e = -1074
  least : -1074 ≤ e
  most : e ≤ 970

theorem carried_dropped {m k : Nat} {e : Int} (pos : 0 < m) (last : lastDigit m e = e + k)
    (most : e + k ≤ 970) : Carried (dropped m k) (e + k) := by
  have unit : exponentUnit = 2 ^ 52 := rfl
  have step : 0 < 2 ^ k := Nat.two_pow_pos k
  obtain ⟨low, high⟩ := dropped_bounds m k
  rw [lastDigit] at last
  refine ⟨?_, ?_, by omega, most⟩
  · -- what stays of the digits is not longer than a significand
    have digits : m < 2 ^ 53 * 2 ^ k := by
      rw [← Nat.pow_add]
      exact Nat.lt_of_lt_of_le Nat.lt_log2_self (Nat.pow_le_pow_right two_pos (by omega))
    have := Nat.div_lt_of_lt_mul (Nat.mul_comm (2 ^ k) _ ▸ digits)
    omega
  · by_cases subnormal : e + k = -1074
    · exact .inr subnormal
    · -- above the least exponent it is not shorter either
      have digits : 2 ^ 52 * 2 ^ k ≤ m := by
        rw [← Nat.pow_add]
        exact (Nat.pow_le_pow_right two_pos (by omega)).trans (Nat.log2_self_le pos.ne')
      have := (Nat.le_div_iff_mul_le step).2 digits
      exact .inl (by omega)

/-- The result with a sign, a significand and an exponent, which has no significand when it is
zero. -/
def assemble (s : Sign) (m : Nat) (e : Int) : UnpackedFloat :=
  if h : m = 0 then .zero s else .finite s m e (Nat.pos_of_ne_zero h)

theorem valued_assemble (s : Sign) {m : Nat} {e : Int} (small : m < 2 * exponentUnit)
    (normal : exponentUnit ≤ m ∨ e = -1074) (least : -1074 ≤ e) (most : e ≤ 971) :
    Valued (assemble s m e) (s.apply m * 2 ^ e) := by
  unfold assemble
  by_cases none : m = 0
  · have nothing : ((s.apply m : Int) : ℚ) * 2 ^ e = 0 := by
      subst none
      cases s <;> exact zero_mul _
    rw [dif_pos none, nothing]
    exact .zero s
  · rw [dif_neg none]
    exact .finite s ⟨Nat.pos_of_ne_zero none, small, normal, least, most⟩

/-- The significand without the digit that may have come in addition. -/
def carry (s : Sign) (m : Nat) (e : Int) : UnpackedFloat :=
  let shift := (lastDigit m e - e).toNat
  assemble s (m / 2 ^ shift) (e + shift)

theorem roundWithAccuracy_eq (s : Sign) {m k : Nat} {e : Int} (last : lastDigit m e = e + k) :
    roundWithAccuracy Format.binary64 s m e .exact = carry s (dropped m k) (e + k) := by
  have shift : (lastDigit m e - e).toNat = k := by omega
  have first : shiftToTargetExponent Format.binary64 m e .exact
      = (ExtendedMantissa.ofMantissaAndAccuracy m .exact >>> k, e + k) := by
    rw [shiftToTargetExponent, targetExponent_eq, shiftToExponent, shift]
  have second (n : Nat) (f : Int) : (shiftToTargetExponent Format.binary64 n f .exact).1.mantissa
      = n / 2 ^ (lastDigit n f - f).toNat := mantissa_shiftRight _ _
  rw [carry, ← second]
  unfold roundWithAccuracy
  rw [first]
  rfl

/-- What is carried can be stored, after one more shift if the significand has become longer. -/
theorem valued_carry (s : Sign) {m : Nat} {e : Int} (carried : Carried m e) :
    Valued (carry s m e) (s.apply m * 2 ^ e) := by
  obtain ⟨small, normal, least, most⟩ := carried
  unfold carry
  dsimp only
  rcases small.lt_or_eq with stored | rfl
  · have digits : m.log2 ≤ 52 := by
      by_cases none : m = 0
      · rw [none]
        decide
      · exact Nat.le_of_lt_succ ((Nat.log2_lt none).2 stored)
    have shift : (lastDigit m e - e).toNat = 0 := by
      rw [lastDigit]
      omega
    rw [shift, Nat.pow_zero, Nat.div_one, Int.natCast_zero, Int.add_zero]
    exact valued_assemble s stored normal least (by omega)
  · -- only ones were left, and rounding them up has made one digit more
    have digits : (2 * exponentUnit).log2 = 53 := by decide
    have shift : (lastDigit (2 * exponentUnit) e - e).toNat = 1 := by
      rw [lastDigit, digits]
      omega
    have half : 2 * exponentUnit / 2 ^ 1 = exponentUnit := rfl
    have same : ((2 * exponentUnit : Nat) : ℚ) * 2 ^ e = exponentUnit * 2 ^ (e + 1) := by
      rw [zpow_add_one₀ two_ne_zero, Nat.cast_mul, Nat.cast_two]
      ring
    rw [shift, half, apply_congr s same]
    exact valued_assemble s (by decide) (.inl le_rfl) (by omega) (by omega)

/-! ### Rounding -/

theorem log2_mul_two_pow {m : Nat} (pos : 0 < m) (k : Nat) : (m * 2 ^ k).log2 = m.log2 + k := by
  have step : 0 < 2 ^ k := Nat.two_pow_pos k
  refine (Nat.log2_eq_iff (Nat.mul_pos pos step).ne').2 ⟨?_, ?_⟩
  · rw [Nat.pow_add]
    exact Nat.mul_le_mul_right _ (Nat.log2_self_le pos.ne')
  · rw [Nat.add_right_comm, Nat.pow_add]
    exact Nat.mul_lt_mul_of_pos_right Nat.lt_log2_self step

/-- The same number has the same last digit however it is written. -/
theorem lastDigit_mul_two_pow {m : Nat} (pos : 0 < m) (e : Int) (k : Nat) :
    lastDigit (m * 2 ^ k) (e - k) = lastDigit m e := by
  rw [lastDigit, lastDigit, log2_mul_two_pow pos]
  omega

section Rounding

variable {n : Int} (least : -1021 ≤ n) (most : n ≤ 1023)
include least most

/-- A number below `2 ^ n` with digits enough is rounded to one that is close to it. -/
theorem exists_roundWithAccuracy (s : Sign) {m : Nat} {e : Int} (pos : 0 < m)
    (enough : e ≤ lastDigit m e) (below : (m : ℚ) * 2 ^ e < 2 ^ n) :
    ∃ v, Valued (roundWithAccuracy Format.binary64 s m e .exact) v ∧
      |v - (s.apply m : Int) * 2 ^ e| ≤ 2 ^ (n - 53) := by
  obtain ⟨k, last⟩ := Int.le.dest enough
  have bounded := lastDigit_le pos below least
  rw [← last] at bounded
  rw [roundWithAccuracy_eq s last.symm]
  refine ⟨_, valued_carry s (carried_dropped pos last.symm (by omega)), ?_⟩
  rw [abs_apply_sub_apply]
  calc |(dropped m k : ℚ) * 2 ^ (e + k) - m * 2 ^ e|
      ≤ 2 ^ (e + k) := abs_dropped_sub_le m k e
    _ ≤ 2 ^ (n - 53) := zpow_le_zpow_right₀ one_le_two bounded

theorem exists_round (s : Sign) {m : Nat} {e : Int} (pos : 0 < m)
    (below : (m : ℚ) * 2 ^ e < 2 ^ n) :
    ∃ v, Valued (UnpackedFloat.round Format.binary64 s m e) v ∧
      |v - (s.apply m : Int) * 2 ^ e| ≤ 2 ^ (n - 53) := by
  generalize shift : (e - lastDigit m e).toNat = k
  have longer : UnpackedFloat.round Format.binary64 s m e
      = roundWithAccuracy Format.binary64 s (m * 2 ^ k) (e - k) .exact := by
    rw [← shift, ← Nat.shiftLeft_eq]
    rfl
  rw [longer, ← apply_mul_two_pow s m e k]
  refine exists_roundWithAccuracy least most s (Nat.mul_pos pos (Nat.two_pow_pos k)) ?_ ?_
  · rw [lastDigit_mul_two_pow pos]
    omega
  · rwa [scaled_mul_two_pow]

/-- A number below `2 ^ n` is rounded to one that is close to it. -/
theorem exists_normalize {z e : Int} (s : Sign) (below : |(z : ℚ) * 2 ^ e| < 2 ^ n) :
    ∃ v, Valued (UnpackedFloat.normalize Format.binary64 z e s) v ∧
      |v - z * 2 ^ e| ≤ 2 ^ (n - 53) := by
  rw [abs_mul, abs_of_pos (two_zpow_pos e)] at below
  unfold UnpackedFloat.normalize
  rcases lt_trichotomy z 0 with negative | rfl | positive
  · obtain ⟨m, rfl⟩ : ∃ m : Nat, z = -m := ⟨(-z).toNat, by omega⟩
    rw [Int.cast_neg, abs_neg, Int.cast_natCast, Nat.abs_cast] at below
    rw [compare_lt_iff_lt.2 negative, neg_neg, Int.toNat_natCast]
    exact exists_round least most .negative (by omega) below
  · refine ⟨0, .zero s, ?_⟩
    rw [Int.cast_zero, zero_mul, sub_zero, abs_zero]
    exact (two_zpow_pos _).le
  · obtain ⟨m, rfl⟩ : ∃ m : Nat, z = m := ⟨z.toNat, by omega⟩
    rw [Int.cast_natCast, Nat.abs_cast] at below
    rw [compare_gt_iff_gt.2 positive, Int.toNat_natCast]
    exact exists_round least most .positive (by omega) below

end Rounding

/-! ### Operations -/

theorem Valued.neg {u : UnpackedFloat} {a : ℚ} (hu : Valued u a) : Valued u.neg (-a) := by
  cases hu with
  | zero s =>
    rw [neg_zero]
    exact .zero (-s)
  | finite s stored =>
    rw [← neg_mul, ← Int.cast_neg, ← apply_neg]
    exact .finite (-s) stored

theorem sub_eq_add (u v : UnpackedFloat) :
    UnpackedFloat.sub Format.binary64 u v = UnpackedFloat.add Format.binary64 u v.neg := by
  cases u <;> cases v <;> try rfl
  next s m e _ t n f _ =>
    have same (x y : Int) : s.apply x - t.apply y = s.apply x + (-t).apply y := by
      rw [apply_neg, Int.sub_eq_add_neg]
    exact congrArg (UnpackedFloat.normalize Format.binary64 · (min e f) .positive) (same _ _)

/-- A significand with more digits, for an exponent that is not larger. -/
theorem apply_decreaseExponent (s : Sign) (m : Nat) {e f : Int} (le : f ≤ e) :
    ((s.apply (decreaseExponent m e f).1 : Int) : ℚ) * 2 ^ f = (s.apply m : Int) * 2 ^ e := by
  have exponent : e - (e - f).toNat = f := by omega
  have longer : (decreaseExponent m e f).1 = m * 2 ^ (e - f).toNat := Nat.shiftLeft_eq _ _
  have same := apply_mul_two_pow s m e (e - f).toNat
  rw [exponent] at same
  rw [longer, same]

/-- Products have digits enough to be rounded. -/
theorem le_lastDigit_mul {m k : Nat} {e f : Int} (hm : Stored m e) (hk : Stored k f) :
    e + f ≤ lastDigit (m * k) (e + f) := by
  have pos : 0 < m * k := Nat.mul_pos hm.pos hk.pos
  rw [lastDigit]
  by_cases large : exponentUnit ≤ m * k
  · have digits : 52 ≤ (m * k).log2 := (Nat.le_log2 pos.ne').2 large
    omega
  · have left := hm.normal.resolve_left fun h => large (h.trans (Nat.le_mul_of_pos_right m hk.pos))
    have right := hk.normal.resolve_left fun h => large (h.trans (Nat.le_mul_of_pos_left k hm.pos))
    omega

section Operations

variable {n : Int} (least : -1021 ≤ n) (most : n ≤ 1023) {u v : UnpackedFloat} {a b : ℚ}
  (hu : Valued u a) (hv : Valued v b)
include least most hu hv

theorem Valued.exists_add (below : |a + b| < 2 ^ n) :
    ∃ c, Valued (UnpackedFloat.add Format.binary64 u v) c ∧ |c - (a + b)| ≤ 2 ^ (n - 53) := by
  have unit := (two_zpow_pos (n - 53)).le
  cases hu with
  | zero s =>
    refine ⟨b, ?_, by rwa [zero_add, sub_self, abs_zero]⟩
    cases hv with
    | zero t => cases s <;> cases t <;> exact .zero _
    | finite t stored => exact .finite t stored
  | @finite s m e hm =>
    cases hv with
    | zero t =>
      refine ⟨_, .finite s hm, by rwa [add_zero, sub_self, abs_zero]⟩
    | @finite t k f hk =>
      rw [← apply_decreaseExponent s m (min_le_left e f),
        ← apply_decreaseExponent t k (min_le_right e f), ← add_mul, ← Int.cast_add] at below ⊢
      exact exists_normalize least most .positive below

theorem Valued.exists_sub (below : |a - b| < 2 ^ n) :
    ∃ c, Valued (UnpackedFloat.sub Format.binary64 u v) c ∧ |c - (a - b)| ≤ 2 ^ (n - 53) := by
  rw [sub_eq_add]
  rw [sub_eq_add_neg] at below ⊢
  exact hu.exists_add least most hv.neg below

theorem Valued.exists_mul (below : |a * b| < 2 ^ n) :
    ∃ c, Valued (UnpackedFloat.mul Format.binary64 u v) c ∧ |c - a * b| ≤ 2 ^ (n - 53) := by
  have unit := (two_zpow_pos (n - 53)).le
  cases hu with
  | zero s =>
    refine ⟨0, ?_, by rwa [zero_mul, sub_self, abs_zero]⟩
    cases hv with
    | zero t => exact .zero _
    | finite t stored => exact .zero _
  | @finite s m e hm =>
    cases hv with
    | zero t =>
      refine ⟨0, .zero _, by rwa [mul_zero, sub_self, abs_zero]⟩
    | @finite t k f hk =>
      have product : ((s.apply m : Int) : ℚ) * 2 ^ e * ((t.apply k : Int) * 2 ^ f)
          = ((s * t).apply (m * k : Nat) : Int) * 2 ^ (e + f) := by
        rw [apply_mul, Int.cast_mul, zpow_add₀ two_ne_zero, mul_mul_mul_comm]
      rw [product] at below ⊢
      rw [abs_mul, abs_apply, abs_of_pos (two_zpow_pos _)] at below
      exact exists_roundWithAccuracy least most (s * t) (Nat.mul_pos hm.pos hk.pos)
        (le_lastDigit_mul hm hk) below

end Operations

section Floats

variable {n : Int} (least : -1021 ≤ n) (most : n ≤ 1023) {x y : Float} {a b : ℚ}
  (hx : StandsFor x a) (hy : StandsFor y b)
include least most hx hy

theorem exists_add_standsFor (below : |a + b| < 2 ^ n) :
    ∃ c, StandsFor (x + y) c ∧ |c - (a + b)| ≤ 2 ^ (n - 53) := by
  obtain ⟨c, valued, near⟩ := Valued.exists_add least most hx hy below
  exact ⟨c, standsFor_ofModel valued, near⟩

theorem exists_sub_standsFor (below : |a - b| < 2 ^ n) :
    ∃ c, StandsFor (x - y) c ∧ |c - (a - b)| ≤ 2 ^ (n - 53) := by
  obtain ⟨c, valued, near⟩ := Valued.exists_sub least most hx hy below
  exact ⟨c, standsFor_ofModel valued, near⟩

theorem exists_mul_standsFor (below : |a * b| < 2 ^ n) :
    ∃ c, StandsFor (x * y) c ∧ |c - a * b| ≤ 2 ^ (n - 53) := by
  obtain ⟨c, valued, near⟩ := Valued.exists_mul least most hx hy below
  exact ⟨c, standsFor_ofModel valued, near⟩

end Floats

end Atomistic.Binary64
