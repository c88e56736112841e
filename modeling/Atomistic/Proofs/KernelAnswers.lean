import Atomistic.Kernel
import Atomistic.Proofs.SharedRows
import Atomistic.Proofs.Traced

/-!
# Answers of kernels

A kernel that fails has written some values by then. Where only its answer matters, these are left
aside: the kernel gives a descriptor that is filled, or it fails.
-/

namespace Atomistic

open Traced

variable {σ α : Type} [Scalar α] [AtomicSystem σ α]

namespace DummyKernel

/-- The values of an environment. -/
def rowValues (k : DummyKernel α) (systems : Systems σ) (features : List DummyFeature)
    (environment : List Int) : Except Error (List α) := do
  let (system, center) ← centerOf systems environment
  features.mapM (k.value system center)

theorem outcome_row (k : DummyKernel α) (systems : Systems σ) (features : List DummyFeature)
    (environment : List Int) :
    (k.row systems features environment).outcome = k.rowValues systems features environment := by
  rw [row, rowValues]
  cases centerOf systems environment with
  | error e => rfl
  | ok found => exact RowRun.outcome_ofColumns ..

/-- What the columns hold, and the values of all environments. -/
def allValues (k : DummyKernel α) (workers : Workers) (environments features : Labels) :
    Traced (Systems σ) (List DummyFeature × List (List α)) :=
  Traced.within .dummyCalculator do
    let features ← k.survey environments features
    return (features, ← Traced.ask fun systems =>
      workers.all (environments.rows.map (k.rowValues systems features)))

/-- If all rows have values, any workers find them. -/
theorem allValues_of_ok {k : DummyKernel α} {workers : Workers} (workers' : Workers)
    {environments features : Labels} {v w : Systems σ × Trace}
    {found : List DummyFeature × List (List α)}
    (h : k.allValues workers environments features v = .ok found w) :
    k.allValues workers' environments features v = .ok found w := by
  revert h
  simp only [allValues, within, bind_apply]
  rcases k.survey environments features (v.1, v.2.push (.enter .dummyCalculator)) with
    ⟨fs, systems, trace⟩ | ⟨e, w'⟩
  · simp only [ask, bind_apply, value_apply, ofExcept_apply]
    cases hall : workers.all (environments.rows.map (k.rowValues systems fs)) with
    | error e => rintro ⟨⟩
    | ok rows =>
      rw [Workers.all_eq_ok.2 (Workers.all_eq_ok.1 hall)]
      exact id
  · rintro ⟨⟩

end DummyKernel

namespace Kernel

/-- The descriptor that a kernel gives. -/
def fillOrFail (k : Kernel α) (workers : Workers) (d : Descriptor α) :
    Traced (Systems σ) (Descriptor α) := do
  let (filled, outcome) ← k.fill workers d
  Traced.ofExcept outcome
  return filled

theorem fillOrFail_sortedDistances (k : SortedDistances α) (workers : Workers) (d : Descriptor α) :
    ((sortedDistances k).fillOrFail workers d : Traced (Systems σ) _) = do
      return { d with values := d.values.write (← k.values d.environments d.features) } := by
  simp only [fillOrFail, fill, bind_assoc, pure_bind]
  rfl

theorem fillOrFail_dummy (k : DummyKernel α) (workers : Workers) (d : Descriptor α) :
    ((dummy k).fillOrFail workers d : Traced (Systems σ) _) = do
      let (features, rows) ← k.allValues workers d.environments d.features
      let slopes := features.map DummyFeature.slope
      return { d with
        values := d.values.write rows
        gradients := d.gradients.map fun g =>
          { g with values := g.values.write (List.replicate g.values.rows slopes) } } := by
  funext ⟨systems, trace⟩
  simp only [fillOrFail, fill, bind_apply, DummyKernel.values, DummyKernel.allValues, within]
  cases k.survey d.environments d.features (systems, trace.push (.enter .dummyCalculator)) with
  | error e w => rfl
  | ok features w =>
    obtain ⟨systems, trace⟩ := w
    have answer := workers.map_share (d.environments.rows.map (k.row systems features))
    have outcomes : (d.environments.rows.map (k.row systems features)).map RowRun.outcome
        = d.environments.rows.map (k.rowValues systems features) := by
      rw [List.map_map]
      exact List.map_congr_left fun row _ => k.outcome_row systems features row
    rw [outcomes] at answer
    simp only [value_apply, pure_apply, ask, bind_apply, ofExcept_apply, ← answer]
    rcases workers.share (d.environments.rows.map (k.row systems features)) with ⟨rows, e | _⟩ <;> rfl

/-- What a kernel gives with some workers, it gives with any. -/
theorem fillOrFail_of_ok {k : Kernel α} {workers : Workers} (workers' : Workers)
    {d filled : Descriptor α} {v w : Systems σ × Trace}
    (h : k.fillOrFail workers d v = .ok filled w) : k.fillOrFail workers' d v = .ok filled w := by
  cases k with
  | sortedDistances k =>
    rw [fillOrFail_sortedDistances] at h ⊢
    exact h
  | dummy k =>
    rw [fillOrFail_dummy, bind_apply] at h ⊢
    rcases hall : k.allValues workers d.environments d.features v with ⟨found, w'⟩ | ⟨e, w'⟩ <;>
      rw [hall] at h
    · rw [DummyKernel.allValues_of_ok workers' hall]
      exact h
    · cases h

end Kernel

end Atomistic
