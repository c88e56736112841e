import Atomistic.Proofs.CalculationCourse
import Atomistic.Proofs.DescriptorStates
import Mathlib.Data.List.Induction

/-!
# What can be read of a descriptor

The values of a descriptor can be read after a calculation that went well. A calculation that fails
takes them away, with one exception: when it gives up because a system can not be copied, the
descriptor is not touched, and the values of an earlier calculation stay readable.

Gradients are not guarded. They can be read whenever the descriptor has some, so they show what the
last calculation left that came as far as preparing the descriptor: its gradients, or zeros if the
kernel failed afterwards. Both statements are for every sequence of calls on one descriptor.
-/

namespace Atomistic

open Traced

variable {σ α : Type}

/-! ### One calculation -/

/-- A calculation that failed made the values unreadable, unless it was refused. -/
theorem Stage.computed_apply (d : Descriptor α) {gradients : Bool} {s : Stage α}
    (prepares : s.Prepares gradients) {e : Error} (failed : s.result = .error e) :
    (s.apply d).computed = true ↔ s = .refused e ∧ d.computed = true := by
  cases s with
  | refused e' =>
    cases failed
    exact (and_iff_right rfl).symm
  | unprepared e' => simp [apply]
  | unfilled e' left => simp [apply, prepares.1]
  | finished filled => cases failed

theorem Descriptor.readValues_eq_error_iff (d : Descriptor α) :
    d.readValues = .error (.parameter .valuesNotComputed) ↔ d.computed = false := by
  unfold readValues
  cases d.computed <;> simp

section OneCalculation

namespace Calculator

variable [Scalar α] [AtomicSystem σ α]

/-- The values can not be read after a calculation that failed, unless it failed to copy a system
and the values of an earlier calculation are there. -/
theorem readValues_of_failed (c : Calculator α) (workers : Workers) (options : CalculationOptions)
    {systems : Systems σ} {d : Descriptor α} {e : Error}
    (failed : ((c.compute workers options).outcome (systems, d)).1 = .error e) :
    ((c.compute workers options).outcome (systems, d)).2.1.2.readValues
        = .error (.parameter .valuesNotComputed) ↔
      ¬ (options.useNativeSystem = true ∧
        (systems.mapM SimpleSystem.copyOf : Except Error (Systems (SimpleSystem α))) = .error e ∧
        d.computed = true) := by
  rw [outcome_compute] at failed ⊢
  rw [Descriptor.readValues_eq_error_iff, ← Bool.not_eq_true,
    Stage.computed_apply d (c.prepares_course workers options systems) failed, c.course_refused_iff,
    and_assoc]

end Calculator

end OneCalculation

/-! ### Around a single atom -/

section SingleAtom

/-- A system with one atom, whose cell is not told. -/
def boxless : RecordedSystem Float where
  size := 1
  species := #[1]
  positions := #[⟨0, 0, 0⟩]
  cell := .infinite
  pairs := []
  pairsContaining := #[[]]
  refused := [.cell]
  cutoffs := #[]

/-- A system that does not tell its size. -/
def sizeless : RecordedSystem Float := { Call.loner with refused := [.size] }

/-- A calculator for the sum of coordinates around an atom. -/
def sums (gradients : Bool) : Calculator Float := ⟨.dummy ⟨1, 0, "", gradients⟩, ""⟩

/-- A descriptor that holds values loses them when there are no environments for it. -/
theorem readValues_of_failed_sizeless :
    let ending := ((sums true).compute .inOrder .all).outcome
      (#[sizeless], { Descriptor.new with computed := true })
    ending.1 = .error (.system (.recordedFailure "size")) ∧
      ending.2.1.2.readValues = .error (.parameter .valuesNotComputed) :=
  ⟨rfl, ((sums true).readValues_of_failed .inOrder .all rfl).2 (by simp [CalculationOptions.all])⟩

/-- The only atom of the only system. -/
def onlyAtom : Labels :=
  ⟨["structure", "center"], [[0, 0]], namesValid_centers, by decide, by decide⟩

/-- The features of the calculator. -/
def bothFeatures : Labels :=
  ⟨["index_delta", "x_y_z"], [[1, 0], [0, 1]], ⟨by decide, by decide⟩, by decide, by decide⟩

theorem requestedSystems_onlyAtom : requestedSystems onlyAtom = .ok [0] := by
  change Except.ok (sortedLabels [0]) = _
  rw [sortedLabels_eq (List.pairwise_singleton _ _) fun _ => Iff.rfl]

variable (gradients : Bool) (trace : Trace)

theorem selectedFeatures_sums : (sums gradients).selectedFeatures .all = .ok bothFeatures := by
  have features : DummyKernel.features = .ok bothFeatures := Labels.ofRows_eq_ok.2 ⟨rfl, rfl⟩
  change DummyKernel.features >>= Except.ok = _
  rw [features]
  rfl

/-- Its cutoff is accepted. -/
theorem check_sums : (sums gradients).kernel.strategy.check = .ok () := by
  have positive : Scalar.isPositiveFinite (1 : Float) = true := by decide
  simp only [sums, Kernel.strategy, Strategy.check, positive, if_true]

theorem environments_sums {s : RecordedSystem Float} (h : s = boxless ∨ s = Call.loner) :
    (sums gradients).environments .all (#[s], trace) = .ok onlyAtom (#[s], trace) := by
  have table : Labels.ofRows ["structure", "center"] [[0, 0]] = .ok onlyAtom :=
    Labels.ofRows_eq_ok.2 ⟨rfl, rfl⟩
  have all : (sums gradients).kernel.strategy.environments (#[s], trace)
      = .ok onlyAtom (#[s], trace) := by
    rcases h with rfl | rfl
    all_goals
      change ofExcept (Labels.ofRows ["structure", "center"] [[0, 0]]) _ = _
      rw [table]
      rfl
  simp only [Calculator.environments, bind_apply, check_sums, ofExcept_apply, all]
  rfl

/-- The calculator finishes for the atom in no cell. -/
theorem finished_boxless (workers : Workers) :
    ∃ d, ((sums false).course workers .all #[boxless]).stage = .finished d := by
  have ready : ∃ after, (sums false).ready .all .all (#[boxless], #[.enter .compute])
      = .ok (.prepared onlyAtom bothFeatures) (#[boxless], after) := by
    simp only [Calculator.ready, bind_apply, value_apply, environments_sums _ _ (.inl rfl),
      selectedFeatures_sums, ofExcept_apply, log_apply, Calculator.prepare, Descriptor.prepare_eq]
    exact ⟨_, rfl⟩
  have fill (trace : Trace) : ∃ d w, (sums false).kernel.fill Workers.inOrder
      (.prepared onlyAtom bothFeatures) (#[boxless], trace) = .ok (d, .ok ()) w := by
    simp only [Kernel.fill, sums, bind_apply, DummyKernel.values, DummyKernel.survey,
      Descriptor.prepared]
    unfold within
    simp only [requestedSystems_onlyAtom]
    exact ⟨_, _, rfl⟩
  obtain ⟨after, ready⟩ := ready
  obtain ⟨d, w, fill⟩ := fill after
  have inOrder : ((sums false).course .inOrder .all #[boxless]).stage = .finished d := by
    change ((sums false).courseDirectly .inOrder .all .all #[boxless] _).stage = _
    rw [Calculator.courseDirectly, ready]
    dsimp only
    rw [fill]
  exact ⟨d, by rw [(sums false).course_of_finished workers inOrder, inOrder]⟩

/-- But it can not be copied. -/
theorem refused_boxless (workers : Workers) :
    ∃ e, ((sums false).course workers ⟨true, .all, .all⟩ #[boxless]).stage = .refused e := by
  refine ⟨.system (.recordedFailure "cell"), ?_⟩
  rw [Calculator.course_refused_iff]
  refine ⟨rfl, ?_⟩
  rw [Array.mapM_eq_mapM_toList]
  rfl

/-- The values of a successful calculation stay readable when the systems can not be copied for the
next one. -/
theorem not_forall_unreadable :
    ¬ ∀ (c : Calculator Float) (workers : Workers) (systems : Systems (RecordedSystem Float))
      (d : Descriptor Float) (options : CalculationOptions) (e : Error),
      c.gives workers .all systems .new = .ok d →
      ((c.compute workers options).outcome (systems, d)).1 = .error e →
      ((c.compute workers options).outcome (systems, d)).2.1.2.readValues
        = .error (.parameter .valuesNotComputed) := by
  intro h
  obtain ⟨d, finished⟩ := finished_boxless .inOrder
  obtain ⟨e, refused⟩ := refused_boxless .inOrder
  have given : (sums false).gives .inOrder .all #[boxless] .new
      = .ok { d with computed := true } := by
    simp only [Calculator.gives, Calculator.outcome_compute, finished]
    rfl
  have unreadable := h _ _ _ _ ⟨true, .all, .all⟩ e given
  rw [Calculator.outcome_compute, refused] at unreadable
  cases unreadable rfl

end SingleAtom

/-! ### Any sequence of calls -/

section Calls

variable [Scalar α]

/-- A call on a descriptor. -/
inductive Change (α : Type) : Type 1 where
  | compute {σ : Type} [AtomicSystem σ α] (calculator : Calculator α) (workers : Workers)
    (systems : Systems σ) (options : CalculationOptions)
  | densify (wanted : List String)
  | densifyToFeatures (wanted : List String)

/-- A descriptor with how the last calculation on it ended, if there was one. -/
structure Past (α : Type) where
  descriptor : Descriptor α
  result : Option (Except Error Unit)

namespace Change

/-- What a call makes of the past of a descriptor. -/
def apply (past : Past α) : Change α → Past α
  | compute c workers systems options =>
    let ending := (c.compute workers options).outcome (systems, past.descriptor)
    ⟨ending.2.1.2, some ending.1⟩
  | densify wanted => { past with
      descriptor := ((Descriptor.densify wanted).outcome past.descriptor).2.1 }
  | densifyToFeatures wanted => { past with
      descriptor := ((Descriptor.densifyToFeatures wanted).outcome past.descriptor).2.1 }

/-- The past of a new descriptor after some calls. -/
def run (changes : List (Change α)) : Past α := changes.foldl apply ⟨.new, none⟩

/-- Does the call prepare the descriptor, and if it does, for a calculation with gradients? -/
def prepares? : Change α → Option Bool
  | compute c workers systems options =>
    (c.course workers options systems).stage.prepared?.map fun _ => c.kernel.computesGradients
  | densify _ | densifyToFeatures _ => none

/-- Does the call finish a calculation, unless it leaves the descriptor as it was? -/
def finishes? : Change α → Option Bool
  | compute c workers systems options =>
    match (c.course workers options systems).stage with
    | .refused _ => none
    | .unprepared _ | .unfilled _ _ => some false
    | .finished _ => some true
  | densify _ | densifyToFeatures _ => none

end Change

/-! ### What moving variables keeps -/

namespace Descriptor

omit [Scalar α] in
theorem isSome_eq_of_rel {β γ : Type} {r : β → γ → Prop} {x : Option β} {y : Option γ}
    (h : Option.Rel r x y) : y.isSome = x.isSome := by
  cases h <;> rfl

/-- Moving variables neither makes nor removes gradients, and leaves values readable or not. -/
theorem ensures_densify_readable (wanted : List String) (d : Descriptor α) :
    Ensures (densify wanted) d fun _ d' =>
      d'.gradients.isSome = d.gradients.isSome ∧ d'.computed = d.computed := by
  refine ensures_mono (ensures_densify wanted d) ?_
  rintro r d' (rfl | ⟨-, p, moved⟩)
  · exact ⟨rfl, rfl⟩
  · exact ⟨isSome_eq_of_rel moved.gradients, moved.computed⟩

theorem ensures_densifyToFeatures_readable (wanted : List String) (d : Descriptor α) :
    Ensures (densifyToFeatures wanted) d fun _ d' =>
      d'.gradients.isSome = d.gradients.isSome ∧ d'.computed = d.computed := by
  refine ensures_mono (ensures_densifyToFeatures wanted d) ?_
  rintro r d' (rfl | ⟨-, p, moved⟩)
  · exact ⟨rfl, rfl⟩
  · exact ⟨isSome_eq_of_rel moved.gradients, moved.computed⟩

end Descriptor

/-! ### What every call keeps or replaces -/

namespace Change

/-- A call decides whether there are gradients if it prepares the descriptor. -/
theorem gradients_apply (past : Past α) (change : Change α) :
    (change.apply past).descriptor.gradients.isSome
      = change.prepares?.getD past.descriptor.gradients.isSome := by
  cases change with
  | compute c workers systems options =>
    have prepares := c.prepares_course workers options systems
    simp only [apply, prepares?, Calculator.outcome_compute]
    cases hstage : (c.course workers options systems).stage with
    | refused e => rfl
    | unprepared e => rfl
    | unfilled e d =>
      rw [hstage] at prepares
      exact prepares.2
    | finished d =>
      rw [hstage] at prepares
      exact prepares
  | densify wanted => exact (Descriptor.ensures_densify_readable wanted _).outcome.1
  | densifyToFeatures wanted =>
    exact (Descriptor.ensures_densifyToFeatures_readable wanted _).outcome.1

/-- A call decides whether values can be read if it is a calculation that is not refused. -/
theorem computed_apply (past : Past α) (change : Change α) :
    (change.apply past).descriptor.computed
      = change.finishes?.getD past.descriptor.computed := by
  cases change with
  | compute c workers systems options =>
    have prepares := c.prepares_course workers options systems
    simp only [apply, finishes?, Calculator.outcome_compute]
    cases hstage : (c.course workers options systems).stage with
    | refused e => rfl
    | unprepared e => rfl
    | unfilled e d =>
      rw [hstage] at prepares
      exact prepares.1
    | finished d => rfl
  | densify wanted => exact (Descriptor.ensures_densify_readable wanted _).outcome.2
  | densifyToFeatures wanted =>
    exact (Descriptor.ensures_densifyToFeatures_readable wanted _).outcome.2

/-- What every call replaces or keeps is what the last call made of it that replaced it. -/
theorem read_foldl {β : Type} (read : Past α → β) {decides : Change α → Option β}
    (step : ∀ past change, read (apply past change) = (decides change).getD (read past))
    (changes : List (Change α)) (past : Past α) :
    read (changes.foldl apply past)
      = (changes.filterMap decides).getLast?.getD (read past) := by
  induction changes using List.reverseRecOn with
  | nil => rfl
  | append_singleton changes change ih =>
    rw [List.foldl_concat, step, ih, List.filterMap_append, List.getLast?_append]
    cases h : decides change <;> simp [h]

/-- After any calls, gradients can be read exactly if the last calculation that prepared the
descriptor was one with gradients, and values exactly if the last calculation that was not refused
was finished. -/
theorem readable_run (changes : List (Change α)) :
    ((run changes).descriptor.readGradients = none ↔
        (changes.filterMap prepares?).getLast? ≠ some true) ∧
      ((run changes).descriptor.readValues = .error (.parameter .valuesNotComputed) ↔
        (changes.filterMap finishes?).getLast? ≠ some true) := by
  constructor
  · have last := read_foldl (·.descriptor.gradients.isSome) gradients_apply changes
      ⟨.new, none⟩
    rw [Descriptor.readGradients, Option.map_eq_none_iff, ← Option.not_isSome_iff_eq_none]
    dsimp only at last
    rw [run, last]
    cases (changes.filterMap prepares?).getLast? <;> simp [Descriptor.new]
  · have last := read_foldl (·.descriptor.computed) computed_apply changes ⟨.new, none⟩
    rw [Descriptor.readValues_eq_error_iff, ← Bool.not_eq_true]
    dsimp only at last
    rw [run, last]
    cases (changes.filterMap finishes?).getLast? <;> simp [Descriptor.new]

end Change

end Calls

/-! ### A kernel that fails -/

section KernelFails

/-- The directions in which the only atom can move. -/
def onlyDirections : Labels :=
  ⟨["structure", "center", "neighbor", "spatial"], [[0, 0, 0, 0], [0, 0, 0, 1], [0, 0, 0, 2]],
    namesValid_neighbors, by decide, by decide⟩

/-- The system after it was asked for its neighbors. -/
def askedLoner : RecordedSystem Float := { Call.loner with cutoffs := #[1] }

/-- The descriptor prepared for the only atom. -/
def onlyZeros : Descriptor Float :=
  { Descriptor.prepared onlyAtom bothFeatures with
    gradients := some ⟨onlyDirections, Dense.zeros 3 2⟩ }

theorem gradientsFor_loner (trace : Trace) :
    (sums true).kernel.strategy.gradientsFor onlyAtom (#[Call.loner], trace)
      = .ok (some onlyDirections) (#[askedLoner], trace) := by
  have found : [0].mapM (Strategy.atomGradients (1 : Float) onlyAtom) (#[Call.loner], trace)
      = .ok [[[0, 0, 0], [0, 0, 0]]] (#[askedLoner], trace) := rfl
  have sorted : sortedRows [[0, 0, 0], [0, 0, 0]] = [[0, 0, 0]] :=
    sortedRows_eq (List.pairwise_singleton _ _) (by simp)
  have table : Labels.ofRows ["structure", "center", "neighbor", "spatial"]
      (([[0, 0, 0]] : List (List Int)).flatMap spatialRows) = .ok onlyDirections :=
    Labels.ofRows_eq_ok.2 ⟨rfl, rfl⟩
  have built : (do
      let rows ← (sortedRows [[0, 0, 0], [0, 0, 0]]).mapM checkRow
      return some (← Labels.ofRows ["structure", "center", "neighbor", "spatial"]
        (rows.flatMap spatialRows))) = .ok (some onlyDirections) := by
    rw [sorted]
    exact congrArg (· >>= fun t => Except.ok (some t)) table
  simp only [sums, Kernel.strategy, Strategy.gradientsFor, bind_apply, requestedSystems_onlyAtom,
    ofExcept_apply, found, pure_apply]
  exact (ofExcept_apply _ _).symm.trans
    (congrArg (fun x => ofExcept x (#[askedLoner], trace)) built)

/-- The kernel fails after the descriptor was prepared for it. -/
theorem unfilled_loner :
    ∃ e left, ((sums true).course .inOrder .all #[Call.loner]).stage = .unfilled e left := by
  have prepare (trace : Trace) : (sums true).prepare .new onlyAtom bothFeatures
      (#[Call.loner], trace) = .ok onlyZeros (#[askedLoner], trace) := by
    rw [Calculator.prepare, if_neg (by decide), bind_apply, gradientsFor_loner]
    rfl
  have ready : ∃ after, (sums true).ready .all .all (#[Call.loner], #[.enter .compute])
      = .ok onlyZeros (#[askedLoner], after) := by
    simp only [Calculator.ready, bind_apply, value_apply, environments_sums _ _ (.inr rfl),
      selectedFeatures_sums, ofExcept_apply, log_apply, prepare]
    exact ⟨_, rfl⟩
  have fill (trace : Trace) : ∃ e left w, (sums true).kernel.fill Workers.inOrder onlyZeros
      (#[askedLoner], trace) = .ok (left, .error e) w := by
    simp only [Kernel.fill, sums, bind_apply, DummyKernel.values, DummyKernel.survey, onlyZeros,
      Descriptor.prepared]
    unfold within
    simp only [requestedSystems_onlyAtom]
    exact ⟨_, _, _, rfl⟩
  obtain ⟨after, ready⟩ := ready
  obtain ⟨e, left, w, fill⟩ := fill after
  refine ⟨e, left, ?_⟩
  change ((sums true).courseDirectly .inOrder .all .all #[Call.loner] _).stage = _
  rw [Calculator.courseDirectly, ready]
  dsimp only
  rw [fill]

/-- Gradients of an unfinished calculation can be read: they are zeros. -/
theorem not_forall_readGradients : ¬ ∀ changes : List (Change Float),
    (Change.run changes).result ≠ some (.ok ()) →
      (Change.run changes).descriptor.readGradients = none := by
  intro h
  obtain ⟨e, left, unfilled⟩ := unfilled_loner
  have prepares := (sums true).prepares_course .inOrder .all #[Call.loner]
  have hidden := h [.compute (sums true) .inOrder #[Call.loner] .all]
  simp only [Change.run, List.foldl_cons, List.foldl_nil, Change.apply, Calculator.outcome_compute,
    unfilled] at hidden
  rw [unfilled] at prepares
  have none := hidden nofun
  rw [Descriptor.readGradients, Option.map_eq_none_iff, Stage.apply] at none
  cases none ▸ prepares.2

end KernelFails

end Atomistic
