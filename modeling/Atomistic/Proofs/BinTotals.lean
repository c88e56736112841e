import Atomistic.Proofs.PeriodicNeighbors
import Atomistic.Proofs.OpenNeighbors
import Atomistic.Proofs.CountedBins

/-!
# Total numbers of bins

The number of bins of a grid is meant to be bounded. When there would be too many of them, every
direction keeps its share: all numbers of bins are multiplied by one factor, the cube root that
brings their product down to the bound. But a share is made a whole number by itself, and no
direction is left without a bin. So the bound is kept when every share is worth a bin, as in a cube.
A direction whose share is less than a bin keeps one nonetheless, and the others do not make up for
that: the total stays below its size without reduction, but it grows with it beyond any bound.
-/

namespace Atomistic.BinGrid

/-! ### Shares -/

/-- The number of bins in all directions together. -/
def product (n : Direction → Nat) : Nat := n .x * n .y * n .z

/-- As many bins as whole cutoffs fit in the extent of a grid, but one at least. -/
noncomputable def wholeCount (lengths : Vector3 ℝ) (cutoff : ℝ) (k : Direction) : Nat :=
  max ⌊lengths.along k / cutoff⌋₊ 1

/-- The factor that brings the product of some numbers of bins down to the bound. -/
noncomputable def reduction (n : Direction → Nat) : ℝ :=
  if product n ≤ maxBins then 1 else ExactField.cubeRoot ((maxBins : ℝ) / product n)

/-- The bins that a direction keeps: the whole part of its share, but one at least. -/
noncomputable def kept (n : Direction → Nat) (k : Direction) : Nat := max ⌊n k * reduction n⌋₊ 1

theorem one_le_wholeCount (lengths : Vector3 ℝ) (cutoff : ℝ) (k : Direction) :
    1 ≤ wholeCount lengths cutoff k := le_max_right _ _

theorem atLeastOne_floor (x : ℝ) : atLeastOne x = (max ⌊x⌋₊ 1 : Nat) := by
  have whole : max (ExactField.wholePart x) 1 = ((max ⌊x⌋₊ 1 : Nat) : Int) := by
    rw [ExactField.wholePart, ← Int.floor_toNat]
    split
    · next neg =>
      have ceil : ⌈x⌉ ≤ 0 := Int.ceil_le.2 (by exact_mod_cast neg.le)
      have floor : ⌊x⌋ ≤ ⌈x⌉ := Int.floor_le_ceil x
      omega
    · omega
  rw [atLeastOne_eq, whole, Int.cast_natCast]

theorem binCounts_along (lengths : Vector3 ℝ) (cutoff : ℝ) (k : Direction) :
    (binCounts lengths cutoff).along k = kept (wholeCount lengths cutoff) k := by
  have count (k : Direction) :
      atLeastOne (lengths.along k / cutoff) = wholeCount lengths cutoff k := atLeastOne_floor _
  have total : atLeastOne (lengths.x / cutoff) * atLeastOne (lengths.y / cutoff)
      * atLeastOne (lengths.z / cutoff) = (product (wholeCount lengths cutoff) : ℝ) := by
    rw [product, Nat.cast_mul, Nat.cast_mul, ← count, ← count, ← count]
    rfl
  rw [kept, reduction, ← atLeastOne_floor]
  unfold binCounts
  dsimp only [Vector3.map]
  rw [total]
  split
  · next many =>
    rw [ExactField.lt_eq_true, ExactField.ofNat_eq, Nat.cast_lt] at many
    rw [if_neg many.not_ge, ExactField.ofNat_eq, ← count]
    cases k <;> rfl
  · next few =>
    rw [ExactField.lt_eq_true, ExactField.ofNat_eq, Nat.cast_lt, not_lt] at few
    rw [if_pos few, mul_one, atLeastOne_natCast (one_le_wholeCount ..), ← count]
    cases k <;> rfl

/-! ### Products of shares -/

section Shares

variable {n : Direction → Nat}

theorem reduction_nonneg (n : Direction → Nat) : 0 ≤ reduction n := by
  rw [reduction]
  split
  · exact zero_le_one
  · exact Real.rpow_nonneg (by positivity) _

/-- A reduction brings the product down to the bound. -/
theorem product_mul_reduction (many : maxBins < product n) :
    (product n : ℝ) * reduction n ^ 3 = maxBins := by
  have nonzero : (product n : ℝ) ≠ 0 := Nat.cast_ne_zero.2 (Nat.zero_lt_of_lt many).ne'
  have cube : ExactField.cubeRoot ((maxBins : ℝ) / product n) ^ 3 = (maxBins : ℝ) / product n :=
    Real.rpow_inv_natCast_pow (n := 3) (by positivity) (by norm_num)
  rw [reduction, if_neg many.not_ge, cube, mul_div_cancel₀ _ nonzero]

theorem reduction_le_one (n : Direction → Nat) : reduction n ≤ 1 := by
  rw [reduction]
  split
  · exact le_rfl
  · next many =>
    rw [not_le] at many
    have total : (0 : ℝ) < product n := Nat.cast_pos.2 (Nat.zero_lt_of_lt many)
    refine Real.rpow_le_one (by positivity) ((div_le_one total).2 ?_) (by norm_num)
    exact Nat.cast_le.2 many.le

theorem kept_of_few (positive : ∀ k, 1 ≤ n k) (few : product n ≤ maxBins) : kept n = n := by
  funext k
  rw [kept, reduction, if_pos few, mul_one, Nat.floor_natCast, Nat.max_eq_left (positive k)]

/-- What is kept is no more than the share, or one bin. -/
theorem kept_le (n : Direction → Nat) (k : Direction) :
    (kept n k : ℝ) ≤ max (n k * reduction n) 1 := by
  rw [kept, Nat.cast_max, Nat.cast_one]
  exact max_le_max_right 1 (Nat.floor_le (mul_nonneg (n k).cast_nonneg (reduction_nonneg n)))

/-- Shares that are worth a bin add up to the bound. -/
theorem product_kept_le (many : maxBins < product n)
    (even : ∀ k, product n ≤ maxBins * n k ^ 3) : product (kept n) ≤ maxBins := by
  have whole := product_mul_reduction many
  have total : (0 : ℝ) < product n := Nat.cast_pos.2 (Nat.zero_lt_of_lt many)
  have nonneg (k : Direction) : (0 : ℝ) ≤ n k * reduction n :=
    mul_nonneg (n k).cast_nonneg (reduction_nonneg n)
  have share (k : Direction) : (1 : ℝ) ≤ n k * reduction n := by
    have worth : (product n : ℝ) ≤ maxBins * (n k : ℝ) ^ 3 := by exact_mod_cast even k
    refine (one_le_pow_iff_of_nonneg (nonneg k) three_ne_zero).1 ?_
    refine le_of_mul_le_mul_left ?_ total
    calc (product n : ℝ) * 1 ≤ maxBins * (n k : ℝ) ^ 3 := by rwa [mul_one]
      _ = product n * (n k * reduction n) ^ 3 := by rw [← whole]; ring
  have bound (k : Direction) : (kept n k : ℝ) ≤ n k * reduction n :=
    (kept_le n k).trans_eq (max_eq_left (share k))
  have real : (product (kept n) : ℝ) ≤ maxBins := by
    calc (product (kept n) : ℝ)
        = kept n .x * kept n .y * kept n .z := by rw [product, Nat.cast_mul, Nat.cast_mul]
      _ ≤ (n .x * reduction n) * (n .y * reduction n) * (n .z * reduction n) := by
        gcongr
        · exact mul_nonneg (nonneg .x) (nonneg .y)
        · exact nonneg .x
        · exact bound .x
        · exact bound .y
        · exact bound .z
      _ = product n * reduction n ^ 3 := by
        rw [product, Nat.cast_mul, Nat.cast_mul]
        ring
      _ = maxBins := whole
  exact_mod_cast real

/-- Where a bin is kept in place of a smaller share, no more than the whole number is added. -/
theorem max_mul_max_le {a b s : ℝ} (ha : 1 ≤ a) (hb : 1 ≤ b) (hs : 0 ≤ s) (small : s ≤ 1) :
    max (a * s) 1 * max (b * s) 1 ≤ max (a * b * s) 1 := by
  rcases max_choice (a * s) 1 with left | left <;>
    rcases max_choice (b * s) 1 with right | right <;> rw [left, right]
  · refine le_max_of_le_left ?_
    nlinarith [mul_nonneg (mul_nonneg (zero_le_one.trans ha) (zero_le_one.trans hb)) hs]
  · refine le_max_of_le_left ?_
    nlinarith [mul_nonneg (zero_le_one.trans ha) hs]
  · refine le_max_of_le_left ?_
    nlinarith [mul_nonneg (zero_le_one.trans hb) hs]
  · exact le_max_of_le_right (one_mul 1).le

/-- However the shares are, the product is no larger than one share of all bins. -/
theorem product_kept_le_mul (positive : ∀ k, 1 ≤ n k) (many : maxBins < product n) :
    (product (kept n) : ℝ) ≤ product n * reduction n := by
  have nonneg := reduction_nonneg n
  have small := reduction_le_one n
  have one (k : Direction) : (1 : ℝ) ≤ n k := by exact_mod_cast positive k
  have pair : (1 : ℝ) ≤ n .x * n .y := one_le_mul_of_one_le_of_one_le (one .x) (one .y)
  have share : (1 : ℝ) ≤ product n * reduction n := by
    calc (1 : ℝ) ≤ maxBins := by norm_num [maxBins]
      _ = product n * reduction n ^ 3 := (product_mul_reduction many).symm
      _ ≤ product n * reduction n := by
        refine mul_le_mul_of_nonneg_left ?_ (product n).cast_nonneg
        exact pow_le_of_le_one nonneg small three_ne_zero
  calc (product (kept n) : ℝ)
      = kept n .x * kept n .y * kept n .z := by rw [product, Nat.cast_mul, Nat.cast_mul]
    _ ≤ max (n .x * reduction n) 1 * max (n .y * reduction n) 1 * max (n .z * reduction n) 1 := by
      gcongr <;> exact kept_le n _
    _ ≤ max (n .x * n .y * reduction n) 1 * max (n .z * reduction n) 1 := by
      gcongr
      exact max_mul_max_le (one .x) (one .y) nonneg small
    _ ≤ max (n .x * n .y * n .z * reduction n) 1 := max_mul_max_le pair (one .z) nonneg small
    _ = product n * reduction n := by
      rw [product, Nat.cast_mul, Nat.cast_mul] at share ⊢
      exact max_eq_left share

theorem product_kept_pow_le (positive : ∀ k, 1 ≤ n k) (many : maxBins < product n) :
    product (kept n) ^ 3 ≤ maxBins * product n ^ 2 := by
  have real : (product (kept n) : ℝ) ^ 3 ≤ maxBins * (product n : ℝ) ^ 2 := by
    calc (product (kept n) : ℝ) ^ 3
        ≤ (product n * reduction n) ^ 3 := by
          gcongr
          exact product_kept_le_mul positive many
      _ = product n * reduction n ^ 3 * (product n : ℝ) ^ 2 := by ring
      _ = maxBins * (product n : ℝ) ^ 2 := by rw [product_mul_reduction many]
  exact_mod_cast real

end Shares

/-! ### Grids -/

theorem le_product {n : Direction → Nat} (positive : ∀ k, 1 ≤ n k) (k : Direction) :
    n k ≤ product n := by
  have positive' (i : Direction) : 0 < (Vector3.ofDirections n).along i := by
    rw [Vector3.along_ofDirections]
    exact positive i
  rw [← Vector3.along_ofDirections n k]
  exact along_le_total positive' k

/-- Numbers of bins that are too large for a count do not matter to the bound. -/
theorem product_min_le_iff {n : Direction → Nat} (positive : ∀ k, 1 ≤ n k) :
    product (fun k => min (n k) 0xFFFFFFFFFFFFFFFF) ≤ maxBins ↔ product n ≤ maxBins := by
  have large : maxBins < 0xFFFFFFFFFFFFFFFF := by decide
  have positive' (k : Direction) : 1 ≤ min (n k) 0xFFFFFFFFFFFFFFFF := by
    have := positive k
    omega
  have same (below : ∀ k, min (n k) 0xFFFFFFFFFFFFFFFF ≤ maxBins) :
      (fun k => min (n k) 0xFFFFFFFFFFFFFFFF) = n := by
    funext k
    have := below k
    omega
  constructor
  · intro few
    rwa [same fun k => (le_product positive' k).trans few] at few
  · intro few
    rwa [same fun k => (Nat.min_le_left _ _).trans ((le_product positive k).trans few)]

section Grid

variable (positions : Array (Vector3 ℝ)) (cell : UnitCell ℝ) (cutoff : ℝ)

theorem shape_along (k : Direction) : (ofPositions positions cell cutoff).shape.along k
    = min (kept (wholeCount (ofPositions positions cell cutoff).lengths cutoff) k)
      0xFFFFFFFFFFFFFFFF := by
  rw [shape_ofPositions, Vector3.along_map, binCounts_along, toCount_natCast]

theorem total_eq_product : (ofPositions positions cell cutoff).total
    = product fun k => min (kept (wholeCount (ofPositions positions cell cutoff).lengths cutoff) k)
      0xFFFFFFFFFFFFFFFF := by
  simp only [product, ← shape_along]
  rfl

end Grid

/-- What the whole numbers of cutoffs in the extent of a grid say of its total number of bins. -/
structure Totals (g : BinGrid ℝ) (n : Direction → Nat) : Prop where
  bounded : g.total ≤ maxBins ↔ product (kept n) ≤ maxBins
  few : product n ≤ maxBins → g.total = product n
  /-- The bound is kept when every share is worth a bin. -/
  even : (∀ k, product n ≤ maxBins * n k ^ 3) → g.total ≤ maxBins
  many : maxBins < product n → g.total ^ 3 ≤ maxBins * product n ^ 2

theorem totals_ofPositions (positions : Array (Vector3 ℝ)) (cell : UnitCell ℝ) (cutoff : ℝ) :
    Totals (ofPositions positions cell cutoff)
      (wholeCount (ofPositions positions cell cutoff).lengths cutoff) := by
  have positive := one_le_wholeCount (ofPositions positions cell cutoff).lengths cutoff
  have total := total_eq_product positions cell cutoff
  generalize wholeCount (ofPositions positions cell cutoff).lengths cutoff = n at positive total ⊢
  have bounded : (ofPositions positions cell cutoff).total ≤ maxBins ↔
      product (kept n) ≤ maxBins := by
    rw [total]
    exact product_min_le_iff fun k => le_max_right _ _
  refine ⟨bounded, fun few => ?_, fun even => ?_, fun many => ?_⟩
  · have counted (k : Direction) : min (n k) 0xFFFFFFFFFFFFFFFF = n k := by
      have small := (le_product positive k).trans few
      rw [maxBins] at small
      omega
    rw [total, kept_of_few positive few]
    exact congrArg product (funext counted)
  · rcases le_or_gt (product n) maxBins with few | many
    · rwa [bounded, kept_of_few positive few]
    · exact bounded.2 (product_kept_le many even)
  · have saturated : (ofPositions positions cell cutoff).total ≤ product (kept n) := by
      rw [total, product, product]
      gcongr <;> exact Nat.min_le_left _ _
    exact (Nat.pow_le_pow_left saturated 3).trans (product_kept_pow_le positive many)

/-- A grid has a bin at least in each direction, also where numbers are rounded. The total keeps to
the bound exactly when the whole parts of all shares do, as when there are few bins to begin with or
every share is worth a bin. In any case it is no larger than the share of all bins. -/
theorem shape_pos_and_totals (positions : Array (Vector3 ℝ)) (cell : UnitCell ℝ) (cutoff : ℝ) :
    (∀ k, 0 < (ofPositions positions cell cutoff).shape.along k) ∧
      Totals (ofPositions positions cell cutoff)
        (wholeCount (ofPositions positions cell cutoff).lengths cutoff) ∧
      ∀ (positions : Array (Vector3 Float)) (cell : UnitCell Float) (cutoff : Float) k,
        0 < (ofPositions positions cell cutoff).shape.along k := by
  refine ⟨one_le_shape positions cell cutoff, totals_ofPositions positions cell cutoff, ?_⟩
  intro positions cell cutoff k
  exact one_le_shape positions cell cutoff k

theorem long_pos (k : Direction) : 0 < (⟨10 ^ 26, 1, 1⟩ : Vector3 ℝ).along k := by
  cases k <;> norm_num [Vector3.along]

open NeighborsList in
theorem total_long :
    (ofPositions cornerAtoms (.box (⟨10 ^ 26, 1, 1⟩ : Vector3 ℝ)) 1).total = 10 ^ 19 := by
  have periodic : (UnitCell.box (⟨10 ^ 26, 1, 1⟩ : Vector3 ℝ)).shape ≠ .infinite := nofun
  have shape (k : Direction) :
      (ofPositions cornerAtoms (.box (⟨10 ^ 26, 1, 1⟩ : Vector3 ℝ)) 1).shape.along k
        = distantBins k := by
    rw [shape_ofPositions, lengths_of_periodic _ _ periodic, UnitCell.faceDistances_box long_pos,
      Vector3.along_map, binCounts_distant, toCount_natCast]
    cases k <;> rfl
  calc (ofPositions cornerAtoms (.box (⟨10 ^ 26, 1, 1⟩ : Vector3 ℝ)) 1).total
      = distantBins .x * distantBins .y * distantBins .z := by
        rw [← shape, ← shape, ← shape]
        rfl
    _ = 10 ^ 19 := rfl

/-- In a box that is long enough there are more bins than the bound. -/
theorem not_forall_total_le : ¬ ∀ (positions : Array (Vector3 ℝ)) (cell : UnitCell ℝ) (cutoff : ℝ),
    cell.Built → 0 < cutoff →
    (∀ k, 0 < (ofPositions positions cell cutoff).shape.along k) ∧
      (ofPositions positions cell cutoff).total ≤ maxBins := by
  intro always
  have built : (UnitCell.box (⟨10 ^ 26, 1, 1⟩ : Vector3 ℝ)).Built :=
    .orthorhombic (UnitCell.orthorhombic_eq_ok.2 ⟨long_pos, rfl⟩)
  have few := (always NeighborsList.cornerAtoms _ 1 built one_pos).2
  rw [total_long] at few
  exact absurd few (by decide)

end Atomistic.BinGrid
