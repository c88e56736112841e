import Atomistic.Proofs.CalculationCourse
import Atomistic.Proofs.SettledKernels

/-!
# Calculations on simple systems

What a calculation gives on simple systems depends on the atoms and the cells of the systems, not on
which of them were asked for their neighbors before: it goes through its steps as they are given
here for the systems at the beginning. Copies of simple systems have been asked for nothing.
-/

namespace Atomistic

open Traced Systems

variable {α : Type} [Scalar α] {start : Systems (SimpleSystem α)}

/-! ### Steps -/

namespace Kernel

/-- The descriptor that is prepared for some environments and features. -/
def preparedAround (k : Kernel α) (start : Systems (SimpleSystem α))
    (environments features : Labels) : Except Error (Descriptor α) :=
  match k with
  | sortedDistances _ => .ok (.prepared environments features)
  | dummy k =>
    if !k.gradients then .ok (.prepared environments features)
    else do
      match ← Strategy.gradientTableAround k.cutoff start environments with
      | none => throw (.internal (.gradientsUnsupported (Kernel.dummy k).name))
      | some gradients => Descriptor.preparedWithGradients environments features gradients

/-- The prepared descriptor with its values and gradients computed. -/
def filledAround (k : Kernel α) (workers : Workers) (start : Systems (SimpleSystem α))
    (d : Descriptor α) : Except Error (Descriptor α) := do
  match k with
  | sortedDistances k =>
    return { d with
      values := d.values.write (← k.valuesAround start d.environments d.features) }
  | dummy k =>
    let (features, rows) ← k.valuesAround workers start d.environments d.features
    let slopes := features.map DummyFeature.slope
    return { d with
      values := d.values.write rows
      gradients := d.gradients.map fun g =>
        { g with values := g.values.write (List.replicate g.values.rows slopes) } }

/-- With any workers it is the same. -/
theorem filledAround_of_ok {k : Kernel α} {workers : Workers} (workers' : Workers)
    {d filled : Descriptor α} (h : k.filledAround workers start d = .ok filled) :
    k.filledAround workers' start d = .ok filled := by
  cases k with
  | sortedDistances k => exact h
  | dummy k =>
    obtain ⟨found, hfound, h⟩ := except_bind_eq_ok.1 h
    exact except_bind_eq_ok.2 ⟨found, DummyKernel.valuesAround_of_ok workers' hfound, h⟩

theorem settles_fillOrFail (k : Kernel α) (workers : Workers) (d : Descriptor α) :
    Settles (Warmed k.cutoff start []) (k.fillOrFail workers d) (k.filledAround workers start d)
      (Warmed k.cutoff start []) := by
  cases k with
  | sortedDistances k =>
    rw [fillOrFail_sortedDistances]
    exact settles_bind (SortedDistances.settles_values _ _) fun _ _ => settles_pure _
  | dummy k =>
    rw [fillOrFail_dummy]
    exact settles_bind (DummyKernel.settles_allValues _ _) fun _ _ => settles_pure _

end Kernel

namespace Calculator

variable (c : Calculator α)

theorem settles_prepare (environments features : Labels) :
    Settles (Warmed c.kernel.cutoff start []) (c.prepare .new environments features)
      (c.kernel.preparedAround start environments features) (Warmed c.kernel.cutoff start []) := by
  obtain ⟨k, parameters⟩ := c
  simp only [prepare, Descriptor.prepare_eq, Descriptor.prepareWithGradients_eq]
  cases k with
  | sortedDistances k => exact settles_pure _
  | dummy k =>
    refine settles_ite (fun _ => settles_pure _) fun _ => ?_
    refine settles_bind (Strategy.settles_gradientsFor_atoms environments) fun found _ => ?_
    cases found with
    | none => exact settles_throw _
    | some gradients => exact settles_ofExcept _

/-- The environments that are wanted, out of all of them. -/
def environmentsAround (start : Systems (SimpleSystem α)) (samples : Selection) :
    Except Error Labels := do
  c.kernel.strategy.check
  samples.select "environments" (← c.kernel.environmentsAround start)

/-- The descriptor that is prepared for the wanted environments and features. -/
def readyAround (start : Systems (SimpleSystem α)) (samples features : Selection) :
    Except Error (Descriptor α) := do
  let environments ← c.environmentsAround start samples
  let features ← c.selectedFeatures features
  c.kernel.preparedAround start environments features

theorem settles_ready (samples features : Selection) :
    Settles (Warmed c.kernel.cutoff start []) (c.ready samples features)
      (c.readyAround start samples features) (Warmed c.kernel.cutoff start []) := by
  intro v hv
  refine ensures_value_bind (settles_bind (q := Warmed c.kernel.cutoff start []) ?_ ?_ v hv)
  · exact settles_bind (settles_ofExcept _) fun _ _ => settles_bind c.kernel.settles_environments
      fun _ _ => settles_ofExcept _
  · intro environments _
    refine settles_bind (settles_ofExcept _) fun features _ => ?_
    exact settles_log_bind (c.settles_prepare environments features)

/-! ### Whole calculations -/

/-- What a calculation gives. -/
def givesAround (workers : Workers) (start : Systems (SimpleSystem α))
    (samples features : Selection) : Except Error (Descriptor α) := do
  let prepared ← c.readyAround start samples features
  let filled ← c.kernel.filledAround workers start prepared
  return { filled with computed := true }

theorem courseDirectly_eq (workers : Workers) (samples features : Selection)
    {v : Systems (SimpleSystem α)} (hv : Warmed c.kernel.cutoff start [] v) (trace : Trace)
    (d : Descriptor α) :
    let run := c.courseDirectly workers samples features v trace
    (run.stage.result.map fun () => run.stage.apply d)
        = c.givesAround workers start samples features ∧
      ∀ given, c.givesAround workers start samples features = .ok given →
        Warmed c.kernel.cutoff start [] run.systems := by
  rw [givesAround]
  have readied := (c.settles_ready samples features).ends hv trace
  rcases c.courseDirectly_cases workers samples features v trace with ⟨e, w, hready, run⟩ |
    ⟨d, w, e, left, w', hready, hfill, -, run⟩ | ⟨d, w, filled, w', hready, hfill, -, run⟩ <;>
    rw [run] <;> dsimp only <;> rw [hready] at readied
  · obtain ⟨_, _, ⟨⟩, -⟩ | ⟨_, _, ⟨⟩, failed⟩ := readied
    rw [failed]
    exact ⟨rfl, nofun⟩
  · obtain ⟨_, _, ⟨⟩, ready, hw⟩ | ⟨_, _, ⟨⟩, -⟩ := readied
    have filling := (c.kernel.settles_fillOrFail workers d).ends hw w.2
    rw [hfill] at filling
    obtain ⟨_, _, ⟨⟩, -⟩ | ⟨_, _, ⟨⟩, failed⟩ := filling
    rw [ready]
    change _ = (c.kernel.filledAround workers start d >>= _) ∧
      ∀ given, (c.kernel.filledAround workers start d >>= _) = _ → _
    rw [failed]
    exact ⟨rfl, nofun⟩
  · obtain ⟨_, _, ⟨⟩, ready, hw⟩ | ⟨_, _, ⟨⟩, -⟩ := readied
    have filling := (c.kernel.settles_fillOrFail workers d).ends hw w.2
    rw [hfill] at filling
    obtain ⟨_, _, ⟨⟩, answer, hw'⟩ | ⟨_, _, ⟨⟩, -⟩ := filling
    rw [ready]
    refine ⟨?_, fun _ _ => hw'⟩
    change _ = c.kernel.filledAround workers start d >>= _
    rw [answer]
    rfl

/-- A calculation with the systems at hand gives what their atoms and cells say, and leaves systems
that it would give the same for. -/
theorem gives_eq_givesAround (workers : Workers) (samples features : Selection)
    {v : Systems (SimpleSystem α)} (hv : Warmed c.kernel.cutoff start [] v) (d : Descriptor α) :
    c.gives workers ⟨false, samples, features⟩ v d
        = c.givesAround workers start samples features ∧
      ∀ given, c.givesAround workers start samples features = .ok given →
        Warmed c.kernel.cutoff start []
          ((c.compute workers ⟨false, samples, features⟩).outcome (v, d)).2.1.1 := by
  rw [gives, outcome_compute]
  exact c.courseDirectly_eq workers samples features hv _ d

/-- A calculation with copies of the systems gives what it gives for these copies, and leaves the
systems as they are. -/
theorem gives_native {σ : Type} [AtomicSystem σ α] (workers : Workers)
    (samples features : Selection) (v : Systems σ) (d : Descriptor α) :
    c.gives workers ⟨true, samples, features⟩ v d
        = (v.mapM SimpleSystem.copyOf >>= fun copies : Systems (SimpleSystem α) =>
          c.gives workers ⟨false, samples, features⟩ copies d) ∧
      ((c.compute workers ⟨true, samples, features⟩).outcome (v, d)).2.1.1 = v := by
  rw [gives, outcome_compute]
  simp only [course, courseAfterCopies, if_true]
  cases v.mapM SimpleSystem.copyOf with
  | error e => exact ⟨rfl, rfl⟩
  | ok copies =>
    refine ⟨?_, rfl⟩
    change _ = c.gives workers ⟨false, samples, features⟩ copies d
    rw [gives, outcome_compute]
    rfl

end Calculator

end Atomistic
