import Atomistic.Proofs.CalculationFailures
import Atomistic.Proofs.Variables

/-!
# What calculations give on systems that keep their contract

If a calculation gives a descriptor at all, then the selections were valid, and the descriptor is the
one that the accounts of the systems decide: its environments and features are the selected ones, its
values are those of the kernel for each of them, and its gradients have a row for each atom that an
environment depends on.
-/

namespace Atomistic

open Traced Systems

variable {σ α : Type} [Scalar α]

/-! ### Values that are written -/

namespace Dense

/-- A row that is written is read again. -/
theorem row_write_zeros {lists : List (List α)} {n m i : Nat} {row : List α} (hi : i < n)
    (hrow : lists[i]? = some row) (length : row.length = m) :
    ((zeros n m).write lists).row i = row := by
  subst length
  have entries : ∀ j ∈ List.range row.length,
      ((zeros n row.length).write lists).get? i j = row[j]? := by
    intro j hj
    rw [List.mem_range] at hj
    rw [get?_write_zeros hi hj hrow (List.getElem?_eq_getElem hj), List.getElem?_eq_getElem hj]
  exact (List.filterMap_congr entries).trans (Partition.pick_range row)

end Dense

namespace Calculator

variable [AtomicSystem σ α] {c : Calculator α} {workers : Workers}
  {samples selected : Selection} {start : Systems σ} {accounts : Nat → Account α}
  {d given : Descriptor α}

/-- A prepared descriptor is filled with the values of its environments. -/
theorem Prepared.values_filled {environments features : Labels} {e : Nat} {environment : List Int}
    (h : c.Prepared accounts environments features d) (hrow : environments.rows[e]? = some environment)
    (length : (c.kernel.valuesOf accounts features environment).length = features.count) :
    (c.kernel.filled accounts d).values.row e = c.kernel.valuesOf accounts features environment ∧
      ∀ f x, (c.kernel.valuesOf accounts features environment)[f]? = some x →
        (c.kernel.filled accounts d).values.get? e f = some x := by
  have values : (c.kernel.filled accounts d).values = (Dense.zeros environments.count
      features.count).write (environments.rows.map (c.kernel.valuesOf accounts features)) := by
    cases h with
    | plain | withGradients => rfl
  obtain ⟨there, -⟩ := List.getElem?_eq_some_iff.1 hrow
  have written : (environments.rows.map (c.kernel.valuesOf accounts features))[e]?
      = some (c.kernel.valuesOf accounts features environment) := by
    rw [List.getElem?_map, hrow]
    rfl
  rw [values]
  refine ⟨Dense.row_write_zeros there written length, fun f x hx => ?_⟩
  obtain ⟨bound, -⟩ := List.getElem?_eq_some_iff.1 hx
  exact Dense.get?_write_zeros there (length ▸ bound) written hx

/-- What a calculation gives was prepared and filled. -/
theorem exists_of_gives (h : c.gives workers ⟨false, samples, selected⟩ start d = .ok given) :
    ∃ prepared w filled w', c.ready samples selected (start, #[.enter .compute]) = .ok prepared w ∧
      c.kernel.fillOrFail workers prepared w = .ok filled w' ∧
      given = { filled with computed := true } := by
  obtain ⟨result, rfl⟩ := gives_eq_ok.1 h
  rw [outcome_compute] at result ⊢
  change (c.courseDirectly workers samples selected start #[.enter .compute]).stage.result
    = .ok () at result
  change ∃ prepared w filled w', _ ∧ _ ∧
    (c.courseDirectly workers samples selected start #[.enter .compute]).stage.apply d = _
  rcases c.courseDirectly_cases workers samples selected start #[.enter .compute] with
    ⟨e, w, -, run⟩ | ⟨d', w, e, left, w', -, -, -, run⟩ |
      ⟨d', w, filled, w', hready, hfill, -, run⟩
  · rw [run] at result
    cases result
  · rw [run] at result
    cases result
  · rw [run]
    exact ⟨d', w, filled, w', hready, hfill, rfl⟩

/-- Where all calls are answered, there is a descriptor for exactly the valid selections. -/
theorem exists_gives_iff (kept : Keep c.kernel.cutoff start accounts)
    (valid : c.kernel.validate = .ok ()) (answering : Answering c.kernel.cutoff start accounts) :
    (∃ given, c.gives workers ⟨false, samples, selected⟩ start d = .ok given) ↔
      samples.Valid (c.kernel.environmentTable accounts start.size) ∧
        selected.Valid c.kernel.featureTable := by
  have fails := (c.fails_iff_of_answering (d := d) workers kept valid answering
    samples selected).1
  have ends : (∃ given, c.gives workers ⟨false, samples, selected⟩ start d = .ok given) ↔
      ¬∃ e, ((c.compute workers ⟨false, samples, selected⟩).outcome (start, d)).1 = .error e := by
    rw [gives]
    cases ((c.compute workers ⟨false, samples, selected⟩).outcome (start, d)).1 <;> simp [Except.map]
  rw [ends, fails, not_not]

/-- What a calculation gives is decided by the accounts of the systems. -/
theorem given_of_accounts (kept : Keep c.kernel.cutoff start accounts)
    (valid : c.kernel.validate = .ok ())
    (h : c.gives workers ⟨false, samples, selected⟩ start d = .ok given) :
    ∃ environments features prepared,
      samples.select "environments" (c.kernel.environmentTable accounts start.size)
        = .ok environments ∧
      environments.names = (c.kernel.environmentTable accounts start.size).names ∧
      environments.rows ⊆ (c.kernel.environmentTable accounts start.size).rows ∧
      selected.select "features" c.kernel.featureTable = .ok features ∧
      features.rows ⊆ c.kernel.featureTable.rows ∧
      c.Prepared accounts environments features prepared ∧
      given = { c.kernel.filled accounts prepared with computed := true } := by
  obtain ⟨prepared, w, filled, w', hready, hfill, rfl⟩ := exists_of_gives h
  have selections : samples.Valid (c.kernel.environmentTable accounts start.size) ∧
      selected.Valid c.kernel.featureTable := by
    by_contra invalid
    obtain ⟨e, refused, -⟩ := ensures_ready_of_not_valid (p := fun _ => True) kept valid
      (fun _ => trivial) (fun _ _ _ => trivial) invalid #[.enter .compute]
    rw [hready] at refused
    cases refused
  obtain ⟨environments, henvironments, names, sub⟩ :=
    Selection.select_of_valid selections.1 "environments"
  obtain ⟨features, hfeatures, -, sub'⟩ := Selection.select_of_valid selections.2 "features"
  obtain ⟨ready, reached⟩ := relies_ready kept valid henvironments names sub hfeatures start
    reached_start #[.enter .compute]
  rw [hready] at ready reached
  obtain ⟨was_prepared, -⟩ := ready
  obtain ⟨rfl, rfl⟩ := was_prepared.tables
  obtain ⟨filling, -⟩ := Kernel.relies_fillOrFail workers kept sub sub' w.1 (reached _ rfl) w.2
  rw [hfill] at filling
  obtain ⟨rfl, -⟩ := filling
  exact ⟨_, _, prepared, henvironments, names, sub, hfeatures, sub', was_prepared, rfl⟩

end Calculator

end Atomistic
