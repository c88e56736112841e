import Atomistic.Proofs.ReducedVectors
import Atomistic.Proofs.PeriodicNeighbors

/-!
# Minimum images

The image of a vector is one of its translates, and should be the shortest of them, so that the
distance of two points is that of one of them to the closest translate of the other, which is also
what a neighbor list says. Taking the nearest whole numbers of the cell vectors away gives the
shortest translate exactly when these vectors are at right angles to each other. In a cell that
leans, some vector has a shorter translate than its image; in one that counts as aligned with the
axes although it is not, what is taken away need not be a translation.
-/

namespace Atomistic.UnitCell

variable {α : Type} [ExactField α] {cell : UnitCell α}

/-- Images are the shortest translates, and distances those of the closest translates, in neighbor
lists too. -/
structure MinimumImages (cell : UnitCell α) : Prop where
  translated : ∀ v, ∃ n, cell.image v = v + cell.translation n
  shortest : ∀ v n, (cell.image v).norm ≤ (v + cell.translation n).norm
  distance : ∀ u w, (∃ n, cell.distance u w = (w + cell.translation n - u).norm) ∧
    ∀ n, cell.distance u w ≤ (w + cell.translation n - u).norm
  neighbors : (cell.shape = .orthorhombic → ∀ x ∈ cell.matrix.offDiagonal, x = 0) →
    ∀ {positions : Array (Vector3 α)} {cutoff : α} {n : NeighborsList α} {trace : Trace},
    (NeighborsList.grid positions cell cutoff).CastsFit positions cutoff →
    (NeighborsList.new .checked positions cell cutoff).outcome () = (.ok n, (), trace) →
    ∀ i j (hi : i < positions.size) (hj : j < positions.size), i < j →
      ((∃ p ∈ n.pairs, p.first = i ∧ p.second = j) ↔
        cell.distance positions[i] positions[j] < cutoff) ∧
      ∀ p ∈ n.pairs, p.first = i → p.second = j →
        p.distance = cell.distance positions[i] positions[j]

/-- Vectors are reduced along vectors at right angles to each other, which have the translations of
the cell. -/
structure RightAngled (cell : UnitCell α) : Prop where
  orthogonal : ∀ j k, j ≠ k →
    (cell.reducing.matrix.along j).dot (cell.reducing.matrix.along k) = 0
  same : ∀ t, cell.reducing.IsTranslation t ↔ cell.IsTranslation t

/-! ### Nearest integers -/

theorem abs_sub_nearest_le (x : α) : |x - nearest x| ≤ 1 / 2 := by
  rw [nearest_eq, abs_le]
  split
  · have above := Int.ceil_lt_add_one (x - 1 / 2)
    have below := Int.le_ceil (x - 1 / 2)
    constructor <;> linarith
  · have above := Int.lt_floor_add_one (x + 1 / 2)
    have below := Int.floor_le (x + 1 / 2)
    constructor <;> linarith

/-- No integer is closer than the nearest one. -/
theorem abs_sub_nearest_le_add (x : α) (n : Int) : |x - nearest x| ≤ |x + n| := by
  have near := abs_sub_nearest_le x
  by_cases same : nearest x + n = 0
  · have other : (n : α) = -nearest x := by
      rw [eq_neg_iff_add_eq_zero, add_comm]
      exact_mod_cast same
    rw [other, sub_eq_add_neg]
  · have one : (1 : α) ≤ |((nearest x + n : Int) : α)| := by
      rw [← Int.cast_abs]
      exact_mod_cast Int.one_le_abs same
    have apart : ((nearest x + n : Int) : α) = x + n - (x - nearest x) := by
      push_cast
      ring
    rw [apart] at one
    linarith [abs_sub (x + n) (x - nearest x)]

theorem nearest_intCast (n : Int) : nearest (n : α) = n := by
  have near := abs_sub_nearest_le_add (n : α) (-n)
  rw [Int.cast_neg, add_neg_cancel, abs_zero, abs_nonpos_iff, sub_eq_zero] at near
  exact_mod_cast near.symm

theorem nearest_eq_zero {x : α} (h : |x| < 1 / 2) : nearest x = 0 := by
  obtain ⟨above, below⟩ := abs_lt.1 h
  rw [nearest_eq]
  split
  · rw [Int.ceil_eq_zero_iff]
    constructor <;> linarith
  · rw [Int.floor_eq_zero_iff]
    constructor <;> linarith

theorem nearest_half : nearest (1 / 2 : α) = 1 := by
  have positive : ¬ (1 / 2 : α) < 0 := by norm_num
  rw [nearest_eq, if_neg positive, add_halves]
  exact Int.floor_one

/-! ### Cells at right angles -/

/-- The square of a length is taken along vectors at right angles. -/
theorem norm2_combine {m : Matrix3 α}
    (orthogonal : ∀ j k, j ≠ k → (m.along j).dot (m.along k) = 0) (c : Vector3 α) :
    (m.combine c).norm2
      = m.x.norm2 * (c.x * c.x) + m.y.norm2 * (c.y * c.y) + m.z.norm2 * (c.z * c.z) := by
  have hxy := orthogonal .x .y nofun
  have hxz := orthogonal .x .z nofun
  have hyz := orthogonal .y .z nofun
  simp only [Vector3.along, Vector3.dot_eq] at hxy hxz hyz
  have hx := m.combine_along c .x
  have hy := m.combine_along c .y
  have hz := m.combine_along c .z
  simp only [Vector3.along] at hx hy hz
  rw [Vector3.norm2, Vector3.norm2, Vector3.norm2, Vector3.norm2, Vector3.dot_eq, Vector3.dot_eq,
    Vector3.dot_eq, Vector3.dot_eq, hx, hy, hz]
  linear_combination (2 * c.x * c.y) * hxy + (2 * c.x * c.z) * hxz + (2 * c.y * c.z) * hyz

/-- Coordinates that are closer to zero give a vector that is not longer. -/
theorem norm_combine_le {m : Matrix3 α}
    (orthogonal : ∀ j k, j ≠ k → (m.along j).dot (m.along k) = 0) {c d : Vector3 α}
    (closer : ∀ k, |c.along k| ≤ |d.along k|) : (m.combine c).norm ≤ (m.combine d).norm := by
  rw [← Vector3.norm2_le_iff, norm2_combine orthogonal, norm2_combine orthogonal]
  have each (k : Direction) : (m.along k).norm2 * (c.along k * c.along k)
      ≤ (m.along k).norm2 * (d.along k * d.along k) :=
    mul_le_mul_of_nonneg_left (abs_le_iff_mul_self_le.1 (closer k)) (Vector3.norm2_nonneg _)
  exact add_le_add (add_le_add (each .x) (each .y)) (each .z)

section RightAngled

variable (right : cell.RightAngled) (h : cell.general.Lattice)
include right h

/-- A cell that counts as aligned has no zero on its diagonal, for the box of its diagonal has all
translations of the cell. -/
theorem RightAngled.diagonal_ne_zero (shape : cell.shape = .orthorhombic) (k : Direction) :
    cell.matrix.diagonal.along k ≠ 0 := by
  intro zero
  have row (j : Direction) : (cell.matrix.along j).along k = 0 := by
    obtain ⟨n, hn⟩ := (right.same _).2 ⟨unit j, (translation_unit cell j).symm⟩
    rw [hn, reducing, if_pos shape, translation_box, zero, zero_mul]
  have one : (cell.matrix.combine (cell.fractional (Vector3.replicate 1))).along k = 1 :=
    (congrArg (Vector3.along · k) (h.combine_fractional _)).trans (Vector3.along_replicate 1 k)
  have hx : cell.matrix.x.along k = 0 := row .x
  have hy : cell.matrix.y.along k = 0 := row .y
  have hz : cell.matrix.z.along k = 0 := row .z
  rw [Matrix3.combine_along, hx, hy, hz, zero_mul, zero_mul, zero_mul, add_zero, add_zero] at one
  exact zero_ne_one one

theorem RightAngled.combine_fractional (v : Vector3 α) :
    cell.reducing.matrix.combine (cell.reducing.fractional v) = v := by
  rw [reducing]
  split
  · next shape =>
    refine Vector3.ext_along fun k => ?_
    have nonzero := right.diagonal_ne_zero h shape k
    rw [box, Matrix3.combine_ofDiagonal, ← box, fractional_box, mul_div_cancel₀ _ nonzero]
  · exact h.combine_fractional v

/-- Then no translate is shorter than the image. -/
theorem RightAngled.norm_image_le (periodic : cell.shape ≠ .infinite) (v : Vector3 α)
    (n : Vector3 Int) : (cell.image v).norm ≤ (v + cell.translation n).norm := by
  obtain ⟨m, hm⟩ := (right.same _).2 ⟨n, rfl⟩
  have own := right.combine_fractional h v
  have image : cell.image v = cell.reducing.matrix.combine (cell.reducing.fractional v
      - ((cell.reducing.fractional v).map nearest).map Int.cast) := by
    rw [image_eq h periodic, Matrix3.combine_sub, own, translation_eq]
  have translate : v + cell.translation n = cell.reducing.matrix.combine
      (cell.reducing.fractional v + m.map Int.cast) := by
    rw [hm, Matrix3.combine_add, own, translation_eq]
  rw [image, translate]
  refine norm_combine_le right.orthogonal fun k => ?_
  simp only [Vector3.along_sub, Vector3.along_add, Vector3.along_map]
  exact abs_sub_nearest_le_add _ _

end RightAngled

/-! ### Distances -/

section Distances

variable (translated : ∀ v, ∃ n, cell.image v = v + cell.translation n)
  (shortest : ∀ v n, (cell.image v).norm ≤ (v + cell.translation n).norm)
include translated shortest

/-- The distance of two points is the least among those of the translates. -/
theorem distance_of_images (u w : Vector3 α) :
    (∃ n, cell.distance u w = (w - u + cell.translation n).norm) ∧
      ∀ n, cell.distance u w ≤ (w - u + cell.translation n).norm := by
  obtain ⟨n, hn⟩ := translated (w - u)
  exact ⟨⟨n, congrArg Vector3.norm hn⟩, shortest (w - u)⟩

/-- A neighbor list has the pairs at distances below the cutoff, and these distances. -/
theorem neighbors_of_images (lattice : cell.Lattice) {positions : Array (Vector3 α)} {cutoff : α}
    {n : NeighborsList α} {trace : Trace}
    (fits : (NeighborsList.grid positions cell cutoff).CastsFit positions cutoff)
    (run : (NeighborsList.new .checked positions cell cutoff).outcome () = (.ok n, (), trace))
    (i j : Nat) (hi : i < positions.size) (hj : j < positions.size) (less : i < j) :
    ((∃ p ∈ n.pairs, p.first = i ∧ p.second = j) ↔
        cell.distance positions[i] positions[j] < cutoff) ∧
      ∀ p ∈ n.pairs, p.first = i → p.second = j →
        p.distance = cell.distance positions[i] positions[j] := by
  obtain ⟨accepted, met, hmet, -, pairs, filled⟩ := NeighborsList.images_of_outcome_new run
  obtain ⟨stored, rfl⟩ := NeighborsList.eq_found_of_imagesWithin hmet
  have positive : 0 < cutoff := by
    rw [Scalar.isPositiveFinite, Bool.and_eq_true, ExactField.lt_eq_true,
      ExactField.zero_eq] at accepted
    exact accepted.1
  rw [pairs] at filled ⊢
  have agrees := NeighborsList.agreesWithImages_of_gather lattice positive stored fits filled
    (.refl _)
  obtain ⟨⟨m, attained⟩, least⟩ :=
    distance_of_images translated shortest positions[i] positions[j]
  rw [← NeighborsList.separation_eq hi hj] at attained least
  refine ⟨(agrees.listed i j).trans ⟨?_, fun near => ?_⟩, ?_⟩
  · rintro ⟨-, -, t, ⟨m', rfl⟩, short⟩
    exact (least m').trans_lt short
  · exact ⟨less, hj, cell.translation m, ⟨m, rfl⟩, attained ▸ near⟩
  · rintro p hp rfl rfl
    obtain ⟨⟨t, ⟨⟨m', rfl⟩, -⟩, vector⟩, closest⟩ := agrees.closest p hp
    refine le_antisymm ?_ ?_
    · rw [attained]
      exact closest _ ⟨m, rfl⟩
    · rw [Pair.distance, vector]
      exact least m'

theorem minimumImages_of_shortest (built : cell.Built) (periodic : cell.shape ≠ .infinite) :
    cell.MinimumImages where
  translated := translated
  shortest := shortest
  distance u w := by
    have turned (n : Vector3 Int) : w + cell.translation n - u = w - u + cell.translation n := by
      refine Vector3.ext_along fun k => ?_
      simp only [Vector3.along_sub, Vector3.along_add]
      ring
    simp only [turned]
    exact distance_of_images translated shortest u w
  neighbors aligned _ _ _ _ fits run :=
    neighbors_of_images translated shortest (built.lattice periodic aligned) fits run

end Distances

/-! ### Which cells have minimum images -/

theorem MinimumImages.norm_image_le (minimum : cell.MinimumImages) (v : Vector3 α) :
    (cell.image v).norm ≤ v.norm := by
  have short := minimum.shortest v (Vector3.replicate 0)
  rwa [add_translation_zero] at short

theorem dot_ofDiagonal {lengths : Vector3 α} {j k : Direction} (ne : j ≠ k) :
    ((Matrix3.ofDiagonal lengths).along j).dot ((Matrix3.ofDiagonal lengths).along k) = 0 := by
  revert ne
  cases j <;> cases k <;> simp [Matrix3.ofDiagonal, Vector3.along, Vector3.dot_eq]

/-- In a cell of no special shape it is the cell vectors that have to be at right angles. -/
theorem rightAngled_of_triclinic (shape : cell.shape = .triclinic)
    (orthogonal : ∀ j k, j ≠ k → (cell.matrix.along j).dot (cell.matrix.along k) = 0) :
    cell.RightAngled where
  orthogonal := by
    rw [reducing_of_triclinic shape]
    exact orthogonal
  same t := by rw [reducing_of_triclinic shape]

theorem RightAngled.minimumImages (right : cell.RightAngled) (built : cell.Built)
    (periodic : cell.shape ≠ .infinite) : cell.MinimumImages := by
  have h := built.general periodic
  refine minimumImages_of_shortest (fun v => ?_) (right.norm_image_le h periodic) built periodic
  obtain ⟨n, hn⟩ := (right.same _).1 ⟨((cell.reducing.fractional v).map nearest), rfl⟩
  exact ⟨n.map (- ·), by rw [image_eq h periodic, hn, sub_translation]⟩

/-- A translation along whose vectors the cell reduces is taken away as a whole. -/
theorem reducing_nearest (h : cell.general.Lattice) (n : Vector3 Int) :
    cell.reducing.translation
        ((cell.reducing.fractional (cell.reducing.translation n)).map nearest)
      = cell.reducing.translation n := by
  rw [reducing]
  split
  · refine Vector3.ext_along fun k => ?_
    rw [translation_box, Vector3.along_map, fractional_box, translation_box]
    by_cases zero : cell.matrix.diagonal.along k = 0
    · rw [zero, zero_mul, zero_mul]
    · rw [mul_div_cancel_left₀ _ zero, nearest_intCast]
  · refine congrArg _ (Vector3.ext_along fun k => ?_)
    rw [Vector3.along_map]
    exact (congrArg nearest (h.fractional_translation n k)).trans (nearest_intCast _)

section MinimumImages

variable (minimum : cell.MinimumImages) (h : cell.general.Lattice)
  (periodic : cell.shape ≠ .infinite)
include minimum h periodic

/-- Vectors are reduced by the translations of the cell. -/
theorem MinimumImages.same (t : Vector3 α) :
    cell.reducing.IsTranslation t ↔ cell.IsTranslation t := by
  constructor
  · rintro ⟨n, rfl⟩
    obtain ⟨m, moved⟩ := minimum.translated (cell.reducing.translation n)
    rw [image_eq h periodic, reducing_nearest h] at moved
    refine ⟨m.map (- ·), Vector3.ext_along fun k => ?_⟩
    have sum := congrArg (Vector3.along · k) moved
    simp only [Vector3.along_sub, Vector3.along_add] at sum
    rw [translation_neg]
    linarith
  · rintro ⟨n, rfl⟩
    have short := minimum.shortest (cell.translation n) (n.map (- ·))
    rw [← sub_translation, ← Vector3.norm2_le_iff, image_eq h periodic] at short
    have none : (cell.translation n - cell.translation n).norm2 = 0 := by
      rw [Vector3.norm2_sub, Vector3.norm2]
      ring
    rw [none] at short
    refine ⟨(cell.reducing.fractional (cell.translation n)).map nearest,
      Vector3.ext_along fun k => sub_eq_zero.1 ?_⟩
    rw [← Vector3.along_sub]
    exact Vector3.along_eq_zero short k

omit minimum periodic in
/-- Next to half a cell vector and a smaller part of another one, the whole cell vector is nearest. -/
theorem nearest_half_row {j k : Direction} (ne : j ≠ k) {s : α} (small : |s| < 1 / 2) :
    (cell.fractional ((cell.matrix.along j).scale (1 / 2) + (cell.matrix.along k).scale s)).map
      nearest = unit j := by
  have row (i l : Direction) :
      (cell.fractional (cell.matrix.along i)).along l = (unit i).along l := by
    rw [← translation_unit]
    exact h.fractional_translation (unit i) l
  refine Vector3.ext_along fun l => ?_
  have sum : (cell.fractional ((cell.matrix.along j).scale (1 / 2)
      + (cell.matrix.along k).scale s)).along l
        = (unit j).along l * (1 / 2) + (unit k).along l * s := by
    refine (h.fractional_add _ _ l).trans (congr (congrArg _ ?_) ?_)
    · exact (h.fractional_scale _ _ l).trans (congrArg (· * _) (row j l))
    · exact (h.fractional_scale _ _ l).trans (congrArg (· * _) (row k l))
  rw [Vector3.along_map, sum, unit_along, unit_along]
  by_cases first : l = j
  · have other : l ≠ k := first ▸ ne
    rw [if_pos first, if_neg other, Int.cast_one, Int.cast_zero, one_mul, zero_mul, add_zero,
      nearest_half]
  · rw [if_neg first, Int.cast_zero, zero_mul, zero_add]
    refine nearest_eq_zero ?_
    split
    · rwa [Int.cast_one, one_mul]
    · rw [Int.cast_zero, zero_mul, abs_zero]
      exact one_half_pos

/-- So the image is shorter by that cell vector, and is not longer than the vector itself only if
the two do not lean towards each other. -/
theorem MinimumImages.dot_nonneg (shape : cell.shape = .triclinic) {j k : Direction} (ne : j ≠ k)
    {s : α} (small : |s| < 1 / 2) : 0 ≤ (cell.matrix.along k).dot (cell.matrix.along j) * s := by
  have own := reducing_of_triclinic shape
  have image := image_eq h periodic ((cell.matrix.along j).scale (1 / 2)
    + (cell.matrix.along k).scale s)
  rw [own, nearest_half_row h ne small, translation_unit] at image
  have short := minimum.norm_image_le ((cell.matrix.along j).scale (1 / 2)
    + (cell.matrix.along k).scale s)
  rw [image, ← Vector3.norm2_le_iff, Vector3.norm2_sub, Vector3.add_dot, Vector3.scale_dot,
    Vector3.scale_dot, ← Vector3.norm2] at short
  linarith

theorem MinimumImages.orthogonal {j k : Direction} (ne : j ≠ k) :
    (cell.reducing.matrix.along j).dot (cell.reducing.matrix.along k) = 0 := by
  cases shape : cell.shape with
  | infinite => exact absurd shape periodic
  | orthorhombic =>
    rw [reducing, if_pos shape, box]
    exact dot_ofDiagonal ne
  | triclinic =>
    have above := minimum.dot_nonneg h periodic shape ne.symm (s := 1 / 4) (by norm_num [abs_lt])
    have below := minimum.dot_nonneg h periodic shape ne.symm (s := -1 / 4) (by norm_num [abs_lt])
    rw [reducing_of_triclinic shape]
    linarith

end MinimumImages

/-- A periodic cell has minimum images exactly when it is reduced along vectors at right angles that
have its translations. -/
theorem minimumImages_iff (built : cell.Built) (periodic : cell.shape ≠ .infinite) :
    cell.MinimumImages ↔ cell.RightAngled := by
  constructor
  · intro minimum
    have h := built.general periodic
    exact ⟨fun _ _ => minimum.orthogonal h periodic, minimum.same h periodic⟩
  · intro right
    exact right.minimumImages built periodic

/-- Vectors at right angles to each other, turned away from the axes. -/
def turned : Matrix3 ℝ := ⟨⟨(3 : Nat), (4 : Nat), 0⟩, ⟨(-4 : Int), (3 : Nat), 0⟩, ⟨0, 0, 1⟩⟩

/-- A cell that is turned away from the axes has minimum images. -/
theorem minimumImages_iff_turned : ∃ cell : UnitCell ℝ, ofMatrix turned = .ok cell ∧ cell.Built ∧
    cell.shape ≠ .infinite ∧ cell.MinimumImages := by
  have leans : (4 : ℝ) ∈ turned.offDiagonal := List.mem_cons_self
  have visible : (1 : ℝ) / 10 ^ 6 ≤ |4| := by norm_num
  have large : (1 : ℝ) / 10 ^ 6 < turned.determinant := by
    rw [determinant_eq, turned]
    norm_num
  obtain ⟨cell, made, shape, matrix⟩ := ofMatrix_triclinic leans visible large
  have periodic : cell.shape ≠ .infinite := by
    rw [shape]
    nofun
  have right : cell.RightAngled := by
    refine rightAngled_of_triclinic shape fun j k ne => ?_
    rw [matrix]
    revert ne
    cases j <;> cases k <;> norm_num [turned, Vector3.along, Vector3.dot_eq]
  have minimum := (minimumImages_iff (.ofMatrix made) periodic).2 right
  exact ⟨cell, made, .ofMatrix made, periodic, minimum⟩

/-- In a cell that leans a vector is its own image, although a cell vector can be taken away. -/
theorem not_forall_minimumImages : ¬ ∀ cell : UnitCell ℝ, cell.Built → cell.shape ≠ .infinite →
    cell.MinimumImages := by
  intro always
  obtain ⟨cell, made, shape, matrix⟩ := ofMatrix_leaning
  have periodic : cell.shape ≠ .infinite := by
    rw [shape]
    nofun
  have h := (Built.ofMatrix made).general periodic
  have own := reducing_of_triclinic shape
  have coordinate (k : Direction) : (cell.fractional ⟨9 / 8, 3 / 8, 0⟩).along k
      = Vector3.dot ⟨9 / 8, 3 / 8, 0⟩ (cell.normal k) := by
    refine (h.fractional_along _ k).trans ?_
    change _ / cell.matrix.determinant = _
    rw [matrix, determinant_leaning, div_one]
    rfl
  have stays : cell.image ⟨9 / 8, 3 / 8, 0⟩ = ⟨9 / 8, 3 / 8, 0⟩ := by
    have numbers : (cell.fractional ⟨9 / 8, 3 / 8, 0⟩).map nearest = Vector3.replicate 0 := by
      refine Vector3.ext_along fun k => ?_
      rw [Vector3.along_map, Vector3.along_replicate, nearest_eq_zero]
      rw [coordinate, abs_lt]
      cases k <;> norm_num [normal, matrix, leaning, Vector3.cross_eq, Vector3.dot_eq]
    rw [image_eq h periodic, own, numbers, sub_translation]
    exact add_translation_zero _ _
  have closer : (⟨9 / 8, 3 / 8, 0⟩ + cell.translation ⟨-1, 0, 0⟩ : Vector3 ℝ)
      = ⟨1 / 8, 3 / 8, 0⟩ := by
    refine Vector3.ext_along fun k => ?_
    rw [Vector3.along_add, translation_along, matrix]
    cases k <;> norm_num [leaning, Vector3.along]
  have short := (always cell (.ofMatrix made) periodic).shortest ⟨9 / 8, 3 / 8, 0⟩ ⟨-1, 0, 0⟩
  rw [stays, closer, ← Vector3.norm2_le_iff, Vector3.norm2, Vector3.norm2, Vector3.dot_eq,
    Vector3.dot_eq] at short
  norm_num at short

end Atomistic.UnitCell
