import Atomistic.Proofs.WrittenCells
import Atomistic.Proofs.InverseMatrices
import Atomistic.Proofs.CalculationCourse
import Atomistic.Proofs.LabelTables
import Atomistic.Proofs.RoundedDeterminants
import Atomistic.Foreign.Status

/-!
# Answered matrices

A matrix becomes a cell, or it is refused because its determinant is not positive. The determinant
that is looked at is not the one that the inverse is made with: that is computed again, for the
transposed matrix. In exact arithmetic both are the same, and with floating-point numbers they are
close to each other as long as the entries are of moderate size. Otherwise the first one may be
accepted while the second one is taken for zero, and the library breaks instead of refusing the
matrix. The same happens with a determinant that is no number, since it is not below anything. A
calculation that copies its systems then breaks where it should have been refused.
-/

namespace Atomistic

open Foreign

namespace UnitCell

/-! ### Answers -/

section Answers

variable {α : Type} [Scalar α]

/-- A matrix is read as a cell, or refused with its determinant. -/
def Answered (m : Matrix3 α) : Prop :=
  (∃ cell, ofMatrix m = .ok cell) ∨
    ofMatrix m = .error (.parameter (.cellDeterminant (Scalar.text m.determinant)))

/-- There is no box, the determinant is small, or that of the transposed matrix is not. -/
def Answerable (m : Matrix3 α) : Prop :=
  m.toList.all (isBelow 12) = true ∨ Scalar.le m.determinant (Scalar.decimal 1 6) = true ∨
    Scalar.lt Scalar.epsilon (Scalar.abs m.transposed.determinant) = true

instance (m : Matrix3 α) : Decidable (Answerable m) := inferInstanceAs (Decidable (_ ∨ _ ∨ _))

/-- A matrix is answered when it can be, and otherwise the library breaks. -/
theorem answered_or_breaks (m : Matrix3 α) : Answerable m ∧ Answered m ∨
    ¬ Answerable m ∧ ofMatrix m = .error (.panic .singularMatrix) := by
  unfold Answered Answerable ofMatrix
  dsimp only
  by_cases unseen : m.toList.all (isBelow 12) = true
  · rw [if_pos unseen]
    exact .inl ⟨.inl unseen, .inl ⟨_, rfl⟩⟩
  · by_cases small : Scalar.le m.determinant (Scalar.decimal 1 6) = true
    · rw [if_neg unseen, if_pos small]
      exact .inl ⟨.inr (.inl small), .inr rfl⟩
    · rw [if_neg unseen, if_neg small, Matrix3.inverse]
      by_cases regular : Scalar.lt Scalar.epsilon (Scalar.abs m.transposed.determinant) = true
      · rw [if_pos regular]
        exact .inl ⟨.inr (.inr regular), .inl ⟨_, rfl⟩⟩
      · rw [if_neg regular]
        exact .inr ⟨by tauto, rfl⟩

/-- What breaks is not answered. -/
theorem not_answered_of_breaks {m : Matrix3 α}
    (breaks : ofMatrix m = .error (.panic .singularMatrix)) : ¬ Answered m := by
  rintro (⟨cell, read⟩ | refused)
  · rw [breaks] at read
    cases read
  · rw [breaks] at refused
    cases refused

theorem answered_iff {m : Matrix3 α} : Answered m ↔ Answerable m := by
  rcases answered_or_breaks m with ⟨answerable, answered⟩ | ⟨not_answerable, breaks⟩
  · exact iff_of_true answered answerable
  · exact iff_of_false (not_answered_of_breaks breaks) not_answerable

theorem breaks_iff {m : Matrix3 α} :
    ofMatrix m = .error (.panic .singularMatrix) ↔ ¬ Answered m := by
  refine ⟨not_answered_of_breaks, fun unanswered => ?_⟩
  rcases answered_or_breaks m with ⟨-, answered⟩ | ⟨-, breaks⟩
  · exact absurd answered unanswered
  · exact breaks

end Answers

/-- In exact arithmetic every matrix is answered. -/
theorem answered_of_exact {α : Type} [ExactField α] (m : Matrix3 α) : Answered m := by
  refine answered_iff.2 ?_
  by_cases small : Scalar.le m.determinant (Scalar.decimal 1 6) = true
  · exact .inr (.inl small)
  · refine .inr (.inr ?_)
    rw [ExactField.le_eq_true, ExactField.decimal_one, not_le] at small
    rw [ExactField.lt_eq_true, determinant_transposed]
    exact (epsilon_lt.trans small).trans_le (le_abs_self _)

/-- Floating-point numbers that are not above 500 in magnitude make up a matrix that is answered. -/
theorem answered_of_moderate {m : Matrix3 Float}
    (moderate : ∀ x ∈ m.toList, Scalar.le (Scalar.abs x) (Scalar.ofNat 500) = true) :
    Answered m := by
  refine answered_iff.2 ?_
  by_cases small : Scalar.le m.determinant (Scalar.decimal 1 6) = true
  · exact .inr (.inl small)
  · exact .inr (.inr (Binary64.lt_abs_determinant_transposed moderate (eq_false_of_ne_true small)))

/-- Large vectors in one plane. -/
def coplanar : Matrix3 Float where
  x := ⟨10000000, 1000001, 3⟩
  y := ⟨20000000, 101000002, 10000004⟩
  z := ⟨10000000, 100000001, 10000001⟩

/-- Without a bound the determinant may be lost. -/
example : ¬ Answerable coplanar := by decide +kernel

end UnitCell

/-! ### Calculations -/

/-- A list has the answer of its first element that has none. -/
theorem except_mapM_of_first {β γ : Type} {f : β → Except Error γ} {x : β} {e : Error}
    (failed : f x = .error e) {rest : List β} :
    ∀ {first : List β}, (∀ y ∈ first, ∃ z, f y = .ok z) → (first ++ x :: rest).mapM f = .error e
  | [], _ => by
    rw [List.nil_append, List.mapM_cons, failed]
    rfl
  | y :: first, h => by
    rw [List.forall_mem_cons] at h
    obtain ⟨⟨z, hz⟩, h⟩ := h
    rw [List.cons_append, List.mapM_cons, hz, except_mapM_of_first failed h]
    rfl

section Calculations

variable {σ α : Type} [Scalar α]

/-- A system that tells as many species and positions as it has atoms, and whose callback for the
cell writes a matrix. -/
structure Foreign.ForeignSystem.Writes (s : ForeignSystem σ α) (m : Matrix3 α) : Prop where
  wrote : ∃ callback, s.callbacks.cell = some callback ∧ callback s.data = ⟨.success, m⟩
  atoms : ∃ species positions, AtomicSystem.species s = .ok species ∧
    AtomicSystem.positions s = .ok positions ∧ AtomicSystem.size s = .ok species.size ∧
    positions.size = species.size

/-- Whether such a system can be copied is decided by its matrix. -/
theorem Foreign.ForeignSystem.Writes.copyOf_eq {s : ForeignSystem σ α} {m : Matrix3 α}
    (h : s.Writes m) : ∃ species positions, SimpleSystem.copyOf s
      = (UnitCell.ofMatrix m).map fun cell => ⟨cell, species, positions, none⟩ := by
  obtain ⟨⟨callback, there, wrote⟩, species, positions, hs, hp, hn, same⟩ := h
  have cell := UnitCell.cell_of_wrote there wrote
  refine ⟨species, positions, ?_⟩
  have sizes : ¬ ((species.size ≠ species.size || positions.size ≠ species.size) = true) := by
    rw [same]
    simp
  rw [SimpleSystem.copyOf, hs, hp, hn, cell]
  dsimp only [bind, Except.bind]
  rw [if_neg sizes]
  cases UnitCell.ofMatrix m <;> rfl

variable [AtomicSystem σ α]

/-- A calculation that copies its systems ends with the error of the first one that can not be
copied, and nothing has changed. -/
theorem Calculator.outcome_of_refused (c : Calculator α) (workers : Workers)
    {options : CalculationOptions} (native : options.useNativeSystem = true)
    {first rest : List σ} {s : σ} {e : Error}
    (copied : ∀ t ∈ first, ∃ copy, SimpleSystem.copyOf t = .ok copy)
    (refused : SimpleSystem.copyOf s = .error e) (d : Descriptor α) :
    (c.compute workers options).outcome (⟨first ++ s :: rest⟩, d)
      = (.error e, (⟨first ++ s :: rest⟩, d), #[.enter .compute, .leave .compute]) := by
  have copies : ((⟨first ++ s :: rest⟩ : Systems σ).mapM SimpleSystem.copyOf
      : Except Error (Systems (SimpleSystem α))) = .error e := by
    rw [Array.mapM_eq_mapM_toList, except_mapM_of_first refused copied]
    rfl
  have run : c.course workers options (⟨first ++ s :: rest⟩ : Systems σ)
      = ⟨.refused e, ⟨first ++ s :: rest⟩, #[.enter .compute, .leave .compute]⟩ := by
    rw [course, courseAfterCopies, if_pos native, copies]
    rfl
  rw [outcome_compute, run]
  rfl

end Calculations

namespace UnitCell

/-- What becomes of a matrix that is read as a cell, by itself and in calculations. -/
structure Reading {α : Type} [Scalar α] (m : Matrix3 α) : Prop where
  answered_iff : Answered m ↔ Answerable m
  breaks_iff : ofMatrix m = .error (.panic .singularMatrix) ↔ ¬ Answered m
  status : ∀ {e : Error}, ofMatrix m = .error e →
    (Status.ofError e = .invalidParameter ↔ Answered m)
  /-- A calculation that copies a system with this matrix fails as the matrix does. -/
  calculation : ∀ {σ : Type} {s : ForeignSystem σ α} {e : Error}, s.Writes m →
    ofMatrix m = .error e →
    ∀ (c : Calculator α) (workers : Workers) (options : CalculationOptions),
    options.useNativeSystem = true →
    ∀ first rest : List (ForeignSystem σ α),
    (∀ t ∈ first, ∃ copy, SimpleSystem.copyOf t = .ok copy) →
    ∀ d, (c.compute workers options).outcome (⟨first ++ s :: rest⟩, d)
      = (.error e, (⟨first ++ s :: rest⟩, d), #[.enter .compute, .leave .compute])

theorem reading {α : Type} [Scalar α] (m : Matrix3 α) : Reading m where
  answered_iff := answered_iff
  breaks_iff := breaks_iff
  status {e} failed := by
    rcases answered_or_breaks m with ⟨-, answered⟩ | ⟨-, breaks⟩
    · refine iff_of_true ?_ answered
      rcases answered with ⟨cell, read⟩ | refused
      · rw [failed] at read
        cases read
      · rw [failed] at refused
        cases refused
        rfl
    · have unanswered := not_answered_of_breaks breaks
      refine iff_of_false ?_ unanswered
      rw [failed] at breaks
      cases breaks
      decide
  calculation writes failed c workers options native first rest copied d := by
    obtain ⟨species, positions, copy⟩ := writes.copyOf_eq
    rw [failed] at copy
    exact c.outcome_of_refused workers native copied copy d

/-- A matrix of floating-point numbers is read as a cell, refused with its determinant, or breaks
the library and the calculations that copy its system. It does not break anything when no entry is
above 500 in magnitude, and it would not in exact arithmetic. -/
theorem reading_and_answered (m : Matrix3 Float) : Reading m ∧
    ((∀ x ∈ m.toList, Scalar.le (Scalar.abs x) (Scalar.ofNat 500) = true) → Answered m) ∧
    ∀ {α : Type} [ExactField α] (n : Matrix3 α), Answered n :=
  ⟨reading m, answered_of_moderate, answered_of_exact⟩

/-- A system without atoms that writes a matrix. -/
def writing (m : Matrix3 Float) : ForeignSystem Unit Float where
  callbacks :=
    { size := some fun _ => ⟨.success, 0⟩
      species := some fun _ => ⟨.success, none⟩
      positions := some fun _ => ⟨.success, none⟩
      cell := some fun _ => ⟨.success, m⟩
      computeNeighbors := none
      pairs := none
      pairsContaining := none }
  data := ()

/-- Two vectors that span no volume. -/
def flat : Matrix3 Float := Matrix3.ofDiagonal ⟨Scalar.one, Scalar.one, Scalar.zero⟩

/-- A calculation that is to copy a flat system is refused. -/
theorem reading_flat : Answered flat ∧
    ∀ (c : Calculator Float) (workers : Workers) (d : Descriptor Float),
      ((c.compute workers ⟨true, .all, .all⟩).outcome (#[writing flat], d)).1
        = .error (.parameter (.cellDeterminant "0")) := by
  obtain ⟨read, moderate, -⟩ := reading_and_answered flat
  refine ⟨moderate (by decide +kernel), fun c workers d => ?_⟩
  have writes : (writing flat).Writes flat := ⟨⟨_, rfl, rfl⟩, #[], #[], rfl, rfl, rfl, rfl⟩
  have refused : ofMatrix flat = .error (.parameter (.cellDeterminant "0")) := by rfl
  have ended := read.calculation writes refused c workers ⟨true, .all, .all⟩ rfl [] [] nofun d
  exact congrArg (·.1) ended

/-- A matrix with an entry that is no number. -/
def undefined : Matrix3 Float :=
  Matrix3.ofDiagonal ⟨Scalar.zero / Scalar.zero, Scalar.one, Scalar.one⟩

/-- What is no number is not refused, and breaks the library. -/
theorem not_forall_answered : ¬ ∀ m : Matrix3 Float, Answered m :=
  fun always => not_answered_of_breaks (m := undefined) rfl (always undefined)

end UnitCell

end Atomistic
