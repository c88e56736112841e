import Atomistic.Calculator
import Atomistic.Proofs.KernelAnswers

/-!
# The course of a calculation

A calculation is given up because a system can not be copied, because nothing can be prepared for
it, or because the kernel fails; otherwise it is finished. Each of these ends does one thing to the
descriptor. How far a calculation gets, and what it puts in the place of the old descriptor, is
found here from the systems, from what is wanted, and from the choices of workers: the descriptor
takes no part in it. All that is said of calculations on descriptors of any past follows from this.
-/

namespace Atomistic

open Traced

variable {σ α : Type}

/-- How far a calculation gets. -/
inductive Stage (α : Type) where
  /-- A system could not be copied. -/
  | refused (e : Error)
  /-- Tables of labels could not be built. -/
  | unprepared (e : Error)
  /-- The kernel failed. What it had written by then is there. -/
  | unfilled (e : Error) (left : Descriptor α)
  | finished (filled : Descriptor α)

namespace Stage

/-- How the calculation ended for its caller. -/
def result : Stage α → Except Error Unit
  | refused e | unprepared e | unfilled e _ => .error e
  | finished _ => .ok ()

/-- What is left of the descriptor `d`. -/
def apply (d : Descriptor α) : Stage α → Descriptor α
  | refused _ => d
  | unprepared _ => { d with computed := false }
  | unfilled _ left => left
  | finished filled => { filled with computed := true }

/-- The descriptor that was prepared for the kernel, as the kernel left it. -/
def prepared? : Stage α → Option (Descriptor α)
  | refused _ | unprepared _ => none
  | unfilled _ d | finished d => some d

/-- What a calculation prepares has gradients or not, and can not be read before it is filled. -/
def Prepares (gradients : Bool) : Stage α → Prop
  | refused _ | unprepared _ => True
  | unfilled _ d => d.computed = false ∧ d.gradients.isSome = gradients
  | finished d => d.gradients.isSome = gradients

end Stage

/-- All that happens in a calculation. -/
structure Course (σ α : Type) where
  stage : Stage α
  systems : Systems σ
  trace : Trace

/-- The end of a calculation that has this course, on the descriptor `d`. -/
def Course.ending (run : Course σ α) (d : Descriptor α) :
    EStateM.Result Error (Calculator.Workspace σ α × Trace) Unit :=
  match run.stage.result with
  | .ok () => .ok () ((run.systems, run.stage.apply d), run.trace)
  | .error e => .error e ((run.systems, run.stage.apply d), run.trace)

namespace Calculator

/-! ### Steps of a calculation -/

theorem setDescriptor_apply (d d' : Descriptor α) (systems : Systems σ) (trace : Trace) :
    setDescriptor d' ((systems, d), trace) = .ok () ((systems, d'), trace) := rfl

theorem onSystems_apply {β : Type} (m : Traced (Systems σ) β) (d : Descriptor α)
    (systems : Systems σ) (trace : Trace) :
    onSystems m ((systems, d), trace) = match m (systems, trace) with
      | .ok b w => .ok b ((w.1, d), w.2)
      | .error e w => .error e ((w.1, d), w.2) := by
  rw [onSystems, focus]
  cases m (systems, trace) <;> rfl

theorem withSystems_apply {τ β : Type} (copies : Systems τ) (m : Traced (Workspace τ α) β)
    (systems : Systems σ) (d : Descriptor α) (trace : Trace) :
    withSystems copies m ((systems, d), trace) = match m ((copies, d), trace) with
      | .ok b w => .ok b ((systems, w.1.2), w.2)
      | .error e w => .error e ((systems, w.1.2), w.2) := by
  rw [withSystems, focus]
  cases m ((copies, d), trace) <;> rfl

variable [Scalar α] [AtomicSystem σ α]

/-! ### Courses -/

/-- The descriptor that a calculation prepares for its kernel. -/
def ready (c : Calculator α) (samples features : Selection) :
    Traced (Systems σ) (Descriptor α) := do
  let systems ← Traced.value
  let environments ← c.environments samples
  let features ← Traced.ofExcept (c.selectedFeatures features)
  Traced.log .debug .calculator (s!"computing {c.name} with {environments.count} environments and "
    ++ s!"{features.count} features on {systems.size} systems")
  c.prepare .new environments features

/-- The course of a calculation with the systems at hand. -/
def courseDirectly (c : Calculator α) (workers : Workers) (samples features : Selection)
    (systems : Systems σ) (trace : Trace) : Course σ α :=
  match c.ready samples features (systems, trace) with
  | .error e w => ⟨.unprepared e, w.1, w.2⟩
  | .ok prepared w =>
    match c.kernel.fill workers prepared w with
    | .error e w => ⟨.unfilled e prepared, w.1, w.2⟩
    | .ok (left, .error e) w => ⟨.unfilled e left, w.1, w.2⟩
    | .ok (filled, .ok ()) w => ⟨.finished filled, w.1, w.2⟩

/-- The course of a calculation, copies of the systems being made first if this is asked for. They
are forgotten afterwards. -/
def courseAfterCopies (c : Calculator α) (workers : Workers) (options : CalculationOptions)
    (systems : Systems σ) (trace : Trace) : Course σ α :=
  if options.useNativeSystem then
    match systems.mapM SimpleSystem.copyOf with
    | .error e => ⟨.refused e, systems, trace⟩
    | .ok copies =>
      let run := c.courseDirectly workers options.samples options.features copies trace
      ⟨run.stage, systems, run.trace⟩
  else c.courseDirectly workers options.samples options.features systems trace

/-- The course of a calculation. -/
def course (c : Calculator α) (workers : Workers) (options : CalculationOptions)
    (systems : Systems σ) : Course σ α :=
  let run := c.courseAfterCopies workers options systems #[.enter .compute]
  { run with trace := run.trace.push (.leave .compute) }

theorem prepare_eq_new (c : Calculator α) (d : Descriptor α) (environments features : Labels) :
    (c.prepare d environments features : Traced (Systems σ) _)
      = c.prepare .new environments features := by
  simp only [prepare, Descriptor.prepare_eq, Descriptor.prepareWithGradients_eq]

/-- A calculation follows its course, whatever the descriptor was before. -/
theorem computeDirectly_apply (c : Calculator α) (workers : Workers) (samples features : Selection)
    (systems : Systems σ) (d : Descriptor α) (trace : Trace) :
    c.computeDirectly workers samples features ((systems, d), trace)
      = (c.courseDirectly workers samples features systems trace).ending d := by
  simp only [computeDirectly, courseDirectly, ready, bind_apply, value_apply, setDescriptor_apply,
    onSystems_apply, c.prepare_eq_new d]
  rcases c.environments samples (systems, trace) with ⟨environments, systems, trace⟩ | ⟨e, w⟩
  case error => rfl
  cases c.selectedFeatures features with
  | error e => rfl
  | ok features =>
    simp only [ofExcept_apply, log_apply, onSystems_apply]
    rcases c.prepare .new environments features (systems, _) with ⟨prepared, w⟩ | ⟨e, w⟩
    case error => rfl
    simp only [setDescriptor_apply, onSystems_apply]
    rcases c.kernel.fill workers prepared w with ⟨⟨filled, _ | _⟩, w⟩ | ⟨e, w⟩ <;> rfl

/-- How a calculation ends, for its caller, its systems and its descriptor. -/
theorem outcome_compute (c : Calculator α) (workers : Workers) (options : CalculationOptions)
    (systems : Systems σ) (d : Descriptor α) :
    let run := c.course workers options systems
    (c.compute workers options).outcome (systems, d)
      = (run.stage.result, (run.systems, run.stage.apply d), run.trace) := by
  rw [Traced.outcome, compute, Traced.within]
  simp only [List.push_toArray, List.nil_append, course, courseAfterCopies]
  cases options.useNativeSystem with
  | false =>
    simp only [Bool.false_eq_true, if_false, computeDirectly_apply, Course.ending]
    cases (c.courseDirectly workers options.samples options.features systems _).stage <;> rfl
  | true =>
    simp only [if_true, bind_apply, Traced.ask, value_apply, ofExcept_apply]
    cases systems.mapM SimpleSystem.copyOf with
    | error e => rfl
    | ok copies =>
      simp only [withSystems_apply, computeDirectly_apply, Course.ending]
      cases (c.courseDirectly workers options.samples options.features copies _).stage <;> rfl

/-! ### What a course prepares -/

theorem answers_ready (c : Calculator α) (samples features : Selection) :
    Answers (c.ready samples features : Traced (Systems σ) _) fun d =>
      d.computed = false ∧ d.gradients.isSome = c.kernel.computesGradients := by
  refine answers_after fun systems => answers_after fun environments => ?_
  refine answers_after fun features => answers_after fun _ => ?_
  unfold prepare
  split
  · next without =>
    refine answers_pure ⟨rfl, ?_⟩
    rw [Bool.not_eq_true'] at without
    rw [without]
    rfl
  · next having =>
    refine answers_after fun found => ?_
    cases found with
    | none => exact answers_throw _
    | some gradients =>
      refine answers_ofExcept fun d hd => ?_
      unfold Descriptor.prepareWithGradients at hd
      split at hd
      · cases hd
        refine ⟨rfl, ?_⟩
        simpa using having
      · cases hd

/-- Kernels fill the gradients of descriptors that have some, and add none. -/
theorem answers_fill_gradients (k : Kernel α) (workers : Workers) (d : Descriptor α) :
    Answers (k.fill workers d : Traced (Systems σ) _) fun left =>
      left.1.computed = d.computed ∧ left.1.gradients.isSome = d.gradients.isSome := by
  cases k with
  | sortedDistances k => exact answers_after fun rows => answers_pure ⟨rfl, rfl⟩
  | dummy k =>
    refine answers_after fun found => ?_
    dsimp only
    split
    · exact answers_pure ⟨rfl, rfl⟩
    · exact answers_pure ⟨rfl, Option.isSome_map⟩

/-- A calculation is given up before its kernel, by its kernel, or not at all. -/
theorem courseDirectly_cases (c : Calculator α) (workers : Workers) (samples features : Selection)
    (systems : Systems σ) (trace : Trace) :
    (∃ e w, c.ready samples features (systems, trace) = .error e w ∧
      c.courseDirectly workers samples features systems trace = ⟨.unprepared e, w.1, w.2⟩) ∨
    (∃ d w e left w', c.ready samples features (systems, trace) = .ok d w ∧
      c.kernel.fillOrFail workers d w = .error e w' ∧
      (left = d ∨ c.kernel.fill workers d w = .ok (left, .error e) w') ∧
      c.courseDirectly workers samples features systems trace = ⟨.unfilled e left, w'.1, w'.2⟩) ∨
    (∃ d w filled w', c.ready samples features (systems, trace) = .ok d w ∧
      c.kernel.fillOrFail workers d w = .ok filled w' ∧
      c.kernel.fill workers d w = .ok (filled, .ok ()) w' ∧
      c.courseDirectly workers samples features systems trace = ⟨.finished filled, w'.1, w'.2⟩) := by
  rw [courseDirectly]
  cases hready : c.ready samples features (systems, trace) with
  | error e w => exact .inl ⟨e, w, rfl, rfl⟩
  | ok d w =>
    simp only [Kernel.fillOrFail, bind_apply]
    rcases hfill : c.kernel.fill workers d w with ⟨⟨left, e | _⟩, w'⟩ | ⟨e, w'⟩
    · exact .inr (.inl ⟨d, w, e, left, w', rfl, by rw [hfill]; rfl, .inr hfill, rfl⟩)
    · exact .inr (.inr ⟨d, w, left, w', rfl, by rw [hfill]; rfl, hfill, rfl⟩)
    · exact .inr (.inl ⟨d, w, e, d, w', rfl, by rw [hfill], .inl rfl, rfl⟩)

/-- What all prepared descriptors have, and filling does not take away, is had by the descriptor that
a calculation leaves. -/
theorem forall_prepared?_courseDirectly (c : Calculator α) {workers : Workers}
    {samples features : Selection} {p : Descriptor α → Prop}
    (ready : Answers (c.ready samples features : Traced (Systems σ) _) p)
    (fill : ∀ d, p d → Answers (c.kernel.fill workers d : Traced (Systems σ) _) fun left => p left.1)
    (systems : Systems σ) (trace : Trace) :
    ∀ d, (c.courseDirectly workers samples features systems trace).stage.prepared? = some d →
      p d := by
  have started := ready systems trace
  rcases c.courseDirectly_cases workers samples features systems trace with ⟨e, w, -, run⟩ |
    ⟨d, w, e, left, w', hready, -, hleft, run⟩ | ⟨d, w, filled, w', hready, -, hfill, run⟩ <;>
    rw [run] <;> rintro d ⟨⟩
  · rw [hready] at started
    have prepared := started d rfl
    rcases hleft with rfl | hfill
    · exact prepared
    · have filling := fill d prepared w.1 w.2
      rw [hfill] at filling
      exact filling _ rfl
  · rw [hready] at started
    have filling := fill d (started d rfl) w.1 w.2
    rw [hfill] at filling
    exact filling _ rfl

theorem prepares_courseDirectly (c : Calculator α) (workers : Workers)
    (samples features : Selection) (systems : Systems σ) (trace : Trace) :
    (c.courseDirectly workers samples features systems trace).stage.Prepares
      c.kernel.computesGradients := by
  have left := c.forall_prepared?_courseDirectly (c.answers_ready samples features)
    (fun d prepared => (answers_fill_gradients c.kernel workers d).imp fun left kept =>
      ⟨kept.1.trans prepared.1, kept.2.trans prepared.2⟩) systems trace
  cases stage : (c.courseDirectly workers samples features systems trace).stage with
  | refused e => trivial
  | unprepared e => trivial
  | unfilled e d => exact left d (by rw [stage]; rfl)
  | finished d => exact (left d (by rw [stage]; rfl)).2

/-- So the descriptor has it after a calculation, if it had it before and being filled is nothing
to it. -/
theorem compute_keeps (c : Calculator α) (workers : Workers) {p : Descriptor α → Prop}
    (ready : ∀ {τ : Type} [AtomicSystem τ α] (samples features : Selection),
      Answers (c.ready samples features : Traced (Systems τ) _) p)
    (fill : ∀ {τ : Type} [AtomicSystem τ α] (d : Descriptor α), p d →
      Answers (c.kernel.fill workers d : Traced (Systems τ) _) fun left => p left.1)
    (mark : ∀ (d : Descriptor α) (computed : Bool), p d → p { d with computed := computed })
    (options : CalculationOptions) (systems : Systems σ) {d : Descriptor α} (h : p d) :
    p ((c.compute workers options).outcome (systems, d)).2.1.2 := by
  have prepared : ∀ d, (c.course workers options systems).stage.prepared? = some d → p d := by
    change ∀ d, (c.courseAfterCopies workers options systems _).stage.prepared? = some d → p d
    rw [courseAfterCopies]
    split
    · cases systems.mapM SimpleSystem.copyOf with
      | error e => rintro d ⟨⟩
      | ok copies => exact c.forall_prepared?_courseDirectly (ready _ _) fill copies _
    · exact c.forall_prepared?_courseDirectly (ready _ _) fill systems _
  rw [outcome_compute]
  cases stage : (c.course workers options systems).stage with
  | refused e => exact h
  | unprepared e => exact mark d false h
  | unfilled e d' => exact prepared d' (by rw [stage]; rfl)
  | finished d' => exact mark d' true (prepared d' (by rw [stage]; rfl))

/-- A calculation prepares gradients exactly when its kernel computes them. -/
theorem prepares_course (c : Calculator α) (workers : Workers) (options : CalculationOptions)
    (systems : Systems σ) :
    (c.course workers options systems).stage.Prepares c.kernel.computesGradients := by
  change (c.courseAfterCopies workers options systems _).stage.Prepares _
  rw [courseAfterCopies]
  split
  · cases systems.mapM SimpleSystem.copyOf with
    | error e => trivial
    | ok copies => exact c.prepares_courseDirectly workers _ _ copies _
  · exact c.prepares_courseDirectly workers _ _ systems _

/-- A calculation is refused when its systems are to be copied and one of them can not be. -/
theorem course_refused_iff (c : Calculator α) (workers : Workers) (options : CalculationOptions)
    (systems : Systems σ) (e : Error) : (c.course workers options systems).stage = .refused e ↔
    options.useNativeSystem = true ∧
      (systems.mapM SimpleSystem.copyOf : Except Error (Systems (SimpleSystem α))) = .error e := by
  change (c.courseAfterCopies workers options systems _).stage = _ ↔ _
  have direct {τ : Type} [AtomicSystem τ α] (systems : Systems τ) (trace : Trace) :
      (c.courseDirectly workers options.samples options.features systems trace).stage
        ≠ .refused e := by
    rcases c.courseDirectly_cases workers options.samples options.features systems trace with
      ⟨e, w, -, run⟩ | ⟨d, w, e, left, w', -, -, -, run⟩ | ⟨d, w, filled, w', -, -, -, run⟩ <;>
      rw [run] <;> nofun
  rw [courseAfterCopies]
  split
  · next native =>
    rw [and_iff_right native]
    cases (systems.mapM SimpleSystem.copyOf : Except Error (Systems (SimpleSystem α))) with
    | error e' => simp
    | ok copies => simpa using direct copies _
  · next own => simpa [own] using direct systems _

/-- A calculation that is finished with some workers is finished with any. -/
theorem courseDirectly_of_finished (c : Calculator α) {workers : Workers} (workers' : Workers)
    {samples features : Selection} {systems : Systems σ} {trace : Trace} {filled : Descriptor α}
    (h : (c.courseDirectly workers samples features systems trace).stage = .finished filled) :
    c.courseDirectly workers' samples features systems trace
      = c.courseDirectly workers samples features systems trace := by
  rcases c.courseDirectly_cases workers samples features systems trace with ⟨e, w, -, run⟩ |
    ⟨d, w, e, left, w', -, -, -, run⟩ | ⟨d, w, filled', w', hready, hfill, -, run⟩
  · rw [run] at h
    cases h
  · rw [run] at h
    cases h
  · have again := Kernel.fillOrFail_of_ok workers' hfill
    rcases c.courseDirectly_cases workers' samples features systems trace with ⟨e, w, hready', -⟩ |
      ⟨d, w, e, left, w', hready', hfill', -⟩ | ⟨d, w, filled', w', hready', hfill', -, run'⟩ <;>
      cases hready.symm.trans hready'
    · cases again.symm.trans hfill'
    · cases again.symm.trans hfill'
      rw [run, run']

theorem course_of_finished (c : Calculator α) {workers : Workers} (workers' : Workers)
    {options : CalculationOptions} {systems : Systems σ} {filled : Descriptor α}
    (h : (c.course workers options systems).stage = .finished filled) :
    c.course workers' options systems = c.course workers options systems := by
  have same : c.courseAfterCopies workers' options systems #[.enter .compute]
      = c.courseAfterCopies workers options systems #[.enter .compute] := by
    change (c.courseAfterCopies workers options systems _).stage = _ at h
    revert h
    simp only [courseAfterCopies]
    cases options.useNativeSystem with
    | false => exact c.courseDirectly_of_finished workers'
    | true =>
      simp only [if_true]
      cases systems.mapM SimpleSystem.copyOf with
      | error e => exact nofun
      | ok copies =>
        intro h
        dsimp only
        rw [c.courseDirectly_of_finished workers' h]
  rw [course, course, same]

/-! ### Calculations on descriptors of any past -/

/-- What a calculation gives to its caller: an error, or the descriptor that it filled. -/
def gives (c : Calculator α) (workers : Workers) (options : CalculationOptions)
    (systems : Systems σ) (d : Descriptor α) : Except Error (Descriptor α) :=
  let ending := (c.compute workers options).outcome (systems, d)
  ending.1.map fun () => ending.2.1.2

theorem gives_eq_ok {c : Calculator α} {workers : Workers} {options : CalculationOptions}
    {systems : Systems σ} {d given : Descriptor α} :
    c.gives workers options systems d = .ok given ↔
      ((c.compute workers options).outcome (systems, d)).1 = .ok () ∧
        ((c.compute workers options).outcome (systems, d)).2.1.2 = given := by
  rw [gives]
  cases ((c.compute workers options).outcome (systems, d)).1 <;> simp [Except.map]

/-- A calculation gives the same on two descriptors that have different pasts, and does the same to
its systems. What it gives with some workers, if it is no failure, it gives with any. -/
theorem gives_eq_gives (c : Calculator α) (workers : Workers) (options : CalculationOptions)
    (systems : Systems σ) (d d' : Descriptor α) :
    c.gives workers options systems d = c.gives workers options systems d' ∧
      ((c.compute workers options).outcome (systems, d)).2.1.1
        = ((c.compute workers options).outcome (systems, d')).2.1.1 ∧
      ∀ given, c.gives workers options systems d = .ok given →
        ∀ workers', c.gives workers' options systems d' = .ok given := by
  rw [gives, gives, outcome_compute, outcome_compute]
  refine ⟨?_, rfl, ?_⟩
  · dsimp only
    cases (c.course workers options systems).stage <;> rfl
  · intro given h workers'
    rw [gives, outcome_compute]
    cases stage : (c.course workers options systems).stage with
    | finished filled =>
      rw [stage] at h
      rw [c.course_of_finished workers' stage, stage]
      exact h
    | refused e => rw [stage] at h; cases h
    | unprepared e => rw [stage] at h; cases h
    | unfilled e left => rw [stage] at h; cases h

end Calculator

end Atomistic
