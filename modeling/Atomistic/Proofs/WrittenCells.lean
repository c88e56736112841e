import Atomistic.Proofs.RealScalar
import Atomistic.Proofs.Lattice
import Atomistic.Foreign.Forwarding

/-!
# Written cells

A cell goes to another program, and comes from it, as the matrix of its vectors: a callback writes
the matrix, and whoever asks for the cell makes it anew. A box may be made with any positive
lengths, but not all matrices of boxes are taken for one. A small volume is refused as if the
determinant were not positive, and a matrix whose entries can not be told from zero stands for the
absence of a box. So a cell comes back as it was exactly when its determinant is large enough.
-/

namespace Atomistic.UnitCell

open Foreign

/-- The cell of a system behind callbacks is what its callback wrote, read as a cell. -/
theorem cell_of_wrote {σ α : Type} [Scalar α] {s : ForeignSystem σ α} {m : Matrix3 α}
    {callback : σ → Answer (Matrix3 α)} (there : s.callbacks.cell = some callback)
    (wrote : callback s.data = ⟨.success, m⟩) : AtomicSystem.cell s = ofMatrix m := by
  have answer : call "cell" s.callbacks.cell s.data = .ok m := by
    rw [there, call, present]
    change (checkStatus "cell" (callback s.data).status >>= fun _ =>
      Except.ok (callback s.data).value) = _
    rw [wrote]
    rfl
  change (call "cell" s.callbacks.cell s.data >>= ofMatrix) = _
  rw [answer]
  rfl

variable {α : Type} [ExactField α] {cell : UnitCell α}

/-- A matrix is read with some outcome, by itself and when a callback has written it. -/
structure ReadAs (m : Matrix3 α) (outcome : Except Error (UnitCell α)) : Prop where
  read : ofMatrix m = outcome
  told : ∀ {σ : Type} (s : ForeignSystem σ α) (callback : σ → Answer (Matrix3 α)),
    s.callbacks.cell = some callback → callback s.data = ⟨.success, m⟩ →
    AtomicSystem.cell s = outcome
  /-- A callback may write the matrix of the cell of another system. -/
  forwarded : ∀ {σ : Type} [AtomicSystem σ α] (source : σ) (known : UnitCell α),
    AtomicSystem.cell source = .ok known → known.matrix = m →
    AtomicSystem.cell (ForeignSystem.mk (.ofSystem (fun _ => none) none) source) = outcome

/-- Callbacks add nothing to the reading of a matrix. -/
theorem readAs {m : Matrix3 α} {outcome : Except Error (UnitCell α)} (read : ofMatrix m = outcome) :
    ReadAs m outcome := by
  have told {σ : Type} (s : ForeignSystem σ α) (callback : σ → Answer (Matrix3 α))
      (there : s.callbacks.cell = some callback) (wrote : callback s.data = ⟨.success, m⟩) :
      AtomicSystem.cell s = outcome := (cell_of_wrote there wrote).trans read
  refine ⟨read, told, fun source known answered same => told _ _ rfl ?_⟩
  change Answer.ofExcept _ (AtomicSystem.cell source >>= fun c => Except.ok c.matrix) = _
  rw [answered, ← same]
  rfl

/-! ### How matrices are read -/

theorem all_isBelow {places : Nat} {xs : List α} :
    xs.all (isBelow places) = true ↔ ∀ x ∈ xs, |x| < 1 / 10 ^ places := by
  simp only [List.all_eq_true, isBelow, ExactField.lt_eq_true, ExactField.decimal_one]
  rfl

/-- A matrix whose entries can not be told from zero is no box. -/
theorem ofMatrix_of_unseen {m : Matrix3 α} (unseen : ∀ x ∈ m.toList, |x| < 1 / 10 ^ 12) :
    ofMatrix m = .ok infinite := by
  rw [ofMatrix, if_pos (all_isBelow.2 unseen)]

/-- Any other matrix is refused when its determinant is too small. -/
theorem ofMatrix_of_small {m : Matrix3 α} (seen : ¬ ∀ x ∈ m.toList, |x| < 1 / 10 ^ 12)
    (small : m.determinant ≤ 1 / 10 ^ 6) :
    ofMatrix m = .error (.parameter (.cellDeterminant (Scalar.text m.determinant))) := by
  have refused : Scalar.le m.determinant (Scalar.decimal 1 6) = true := by
    rw [ExactField.le_eq_true, ExactField.decimal_one]
    exact small
  unfold ofMatrix
  rw [if_neg (mt all_isBelow.1 seen)]
  exact if_pos refused

/-- A cell made from a matrix has this matrix, unless there is no box. -/
theorem ofMatrix_cases {m : Matrix3 α} (made : ofMatrix m = .ok cell) : cell = infinite ∨
    cell.shape ≠ .infinite ∧ cell.matrix = m ∧ 1 / 10 ^ 6 < m.determinant := by
  unfold ofMatrix at made
  split at made
  · cases made
    exact .inl rfl
  dsimp only at made
  split at made
  · cases made
  · next large =>
    rw [ExactField.le_eq_true, ExactField.decimal_one, not_le] at large
    cases hinverse : m.transposed.inverse with
    | error e =>
      rw [hinverse] at made
      cases made
    | ok inverse =>
      rw [hinverse] at made
      cases made
      refine .inr ⟨?_, rfl, large⟩
      change (if _ then CellShape.orthorhombic else CellShape.triclinic) ≠ _
      split <;> nofun

theorem ofMatrix_infinite : ofMatrix (infinite : UnitCell α).matrix = .ok infinite := by
  refine ofMatrix_of_unseen fun x hx => ?_
  have zero : x = 0 := by
    simpa [infinite, Matrix3.zero, Vector3.zero, Vector3.replicate, Matrix3.toList,
      Vector3.toList] using hx
  rw [zero, abs_zero]
  positivity

/-- A cell made from a matrix is made from its own one too. -/
theorem ofMatrix_matrix {m : Matrix3 α} (made : ofMatrix m = .ok cell) :
    ofMatrix cell.matrix = .ok cell := by
  rcases ofMatrix_cases made with rfl | ⟨-, same, -⟩
  · exact ofMatrix_infinite
  · rw [same, made]

/-! ### How boxes are read -/

theorem mem_toList_ofDiagonal (v : Vector3 α) (k : Direction) :
    v.along k ∈ (Matrix3.ofDiagonal v).toList := by
  cases k <;> simp [Matrix3.ofDiagonal, Matrix3.toList, Vector3.toList, Vector3.along]

section Box

variable {lengths : Vector3 α} (positive : ∀ k, 0 < lengths.along k)
include positive

/-- The volume of a box whose sides can not be told from zero is small. -/
theorem determinant_of_unseen (unseen : ∀ x ∈ (box lengths).matrix.toList, |x| < 1 / 10 ^ 12) :
    (box lengths).matrix.determinant ≤ 1 / 10 ^ 6 := by
  have below (k : Direction) : lengths.along k ≤ 1 / 10 ^ 2 := by
    have short := unseen _ (mem_toList_ofDiagonal lengths k)
    rw [abs_of_pos (positive k)] at short
    exact short.le.trans (by norm_num)
  have nonneg (k : Direction) : 0 ≤ lengths.along k := (positive k).le
  have face : lengths.x * lengths.y ≤ 1 / 10 ^ 2 * (1 / 10 ^ 2) :=
    mul_le_mul (below .x) (below .y) (nonneg .y) (by norm_num)
  calc (box lengths).matrix.determinant
      = lengths.x * lengths.y * lengths.z := determinant_ofDiagonal lengths
    _ ≤ 1 / 10 ^ 2 * (1 / 10 ^ 2) * (1 / 10 ^ 2) :=
        mul_le_mul face (below .z) (nonneg .z) (by norm_num)
    _ = 1 / 10 ^ 6 := by norm_num

/-- A box whose volume is large enough is read back from its matrix. -/
theorem ofMatrix_box (large : 1 / 10 ^ 6 < (box lengths).matrix.determinant) :
    ofMatrix (box lengths).matrix = .ok (box lengths) := by
  have seen := mt (determinant_of_unseen positive) large.not_ge
  push Not at seen
  obtain ⟨x, hx, visible⟩ := seen
  have aligned : (box lengths).matrix.offDiagonal.all (isBelow 6) = true := by
    refine all_isBelow.2 fun x hx => ?_
    have zero : x = 0 := by simpa [box, Matrix3.ofDiagonal, Matrix3.offDiagonal] using hx
    rw [zero, abs_zero]
    positivity
  rw [ofMatrix_eq_ok hx visible large, if_pos aligned, ← (lattice_box positive).fractional_eq]
  rfl

end Box

/-! ### Which cells come back -/

/-- A cell is a box with sides along the axes, or it is made from its matrix. -/
theorem box_or_ofMatrix (built : cell.Built) :
    (∃ lengths : Vector3 α, (∀ k, 0 < lengths.along k) ∧ cell = box lengths) ∨
      ofMatrix cell.matrix = .ok cell := by
  cases built with
  | infinite => exact .inr ofMatrix_infinite
  | cubic made => exact .inl ⟨_, orthorhombic_eq_ok.1 made⟩
  | orthorhombic made => exact .inl ⟨_, orthorhombic_eq_ok.1 made⟩
  | ofMatrix made => exact .inr (ofMatrix_matrix made)
  | triclinic made =>
    unfold UnitCell.triclinic at made
    split at made
    · split at made
      · next read =>
        cases made
        exact .inr (ofMatrix_matrix read)
      · cases made
      · cases made
    · cases made

theorem ofMatrix_matrix_iff (built : cell.Built) : ofMatrix cell.matrix = .ok cell ↔
    (cell.shape ≠ .infinite → 1 / 10 ^ 6 < cell.matrix.determinant) := by
  constructor
  · intro read periodic
    rcases ofMatrix_cases read with rfl | ⟨-, -, large⟩
    · exact absurd rfl periodic
    · exact large
  · intro large
    rcases box_or_ofMatrix built with ⟨lengths, positive, rfl⟩ | read
    · exact ofMatrix_box positive (large nofun)
    · exact read

/-- A cell comes back from its matrix as it was, directly or through callbacks, exactly when its
volume is large enough. Otherwise it comes back as the absence of a box, or it is refused. -/
theorem readAs_matrix (built : cell.Built) :
    (ReadAs cell.matrix (.ok cell) ↔
      (cell.shape ≠ .infinite → 1 / 10 ^ 6 < cell.matrix.determinant)) ∧
    (¬ ReadAs cell.matrix (.ok cell) → cell.shape ≠ .infinite ∧ ReadAs cell.matrix
      (if cell.matrix.toList.all (isBelow 12) then .ok infinite
        else .error (.parameter (.cellDeterminant (Scalar.text cell.matrix.determinant))))) := by
  have comesBack : ReadAs cell.matrix (.ok cell) ↔
      (cell.shape ≠ .infinite → 1 / 10 ^ 6 < cell.matrix.determinant) := by
    rw [← ofMatrix_matrix_iff built]
    exact ⟨ReadAs.read, readAs⟩
  refine ⟨comesBack, fun lost => ?_⟩
  rw [comesBack, Classical.not_imp, not_lt] at lost
  obtain ⟨periodic, small⟩ := lost
  refine ⟨periodic, readAs ?_⟩
  split
  · next unseen => exact ofMatrix_of_unseen (all_isBelow.1 unseen)
  · next seen => exact ofMatrix_of_small (mt all_isBelow.2 seen) small

/-- A wide and thin sheet. -/
noncomputable def sheet : Vector3 ℝ := ⟨((10 ^ 13 : Nat) : ℝ)⁻¹, (10 ^ 9 : Nat), 1⟩

/-- A sheet comes back, although one of its sides can not be told from zero. -/
theorem readAs_matrix_sheet : ∃ cell : UnitCell ℝ, orthorhombic sheet = .ok cell ∧ cell.Built ∧
    ReadAs cell.matrix (.ok cell) := by
  have positive (k : Direction) : 0 < sheet.along k := by
    cases k <;> norm_num [sheet, Vector3.along]
  have made : orthorhombic sheet = .ok (box sheet) := orthorhombic_eq_ok.2 ⟨positive, rfl⟩
  refine ⟨box sheet, made, .orthorhombic made, (readAs_matrix (.orthorhombic made)).1.2 fun _ => ?_⟩
  have volume : (box sheet).matrix.determinant = sheet.x * sheet.y * sheet.z :=
    determinant_ofDiagonal sheet
  rw [volume]
  norm_num [sheet]

/-- A small cube does not come back: its volume is refused. -/
theorem not_forall_readAs_matrix : ¬ ∀ cell : UnitCell ℝ, cell.Built →
    ReadAs cell.matrix (.ok cell) := by
  intro always
  let lengths : Vector3 ℝ := Vector3.replicate ((2 ^ 7 : Nat) : ℝ)⁻¹
  have positive (k : Direction) : 0 < lengths.along k := by
    rw [Vector3.along_replicate]
    positivity
  have made : cubic ((2 ^ 7 : Nat) : ℝ)⁻¹ = .ok (box lengths) :=
    orthorhombic_eq_ok.2 ⟨positive, rfl⟩
  have read := (always (box lengths) (.cubic made)).read
  have large := (ofMatrix_matrix_iff (.cubic made)).1 read nofun
  have volume : (box lengths).matrix.determinant = lengths.x * lengths.y * lengths.z :=
    determinant_ofDiagonal lengths
  rw [volume] at large
  norm_num [lengths, Vector3.replicate] at large

end Atomistic.UnitCell
