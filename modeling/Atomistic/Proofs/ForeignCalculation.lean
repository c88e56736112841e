import Atomistic.Proofs.CallbackSystems
import Atomistic.Proofs.ReadableResults
import Atomistic.Proofs.Sessions

/-!
# Calculations for programs in other languages

A program in another language has a descriptor computed for systems behind callbacks. What it gets
is what a calculation does for systems that stand for them: the same descriptor, and the status of
the same outcome.
-/

namespace Atomistic

open Traced

/-- The outcome of a computation is how it ends after the empty trace. -/
theorem Traced.outcome_eq_ending {s β : Type} (m : Traced s β) (v : s) :
    (m.outcome v).1 = (ending (m (v, #[]))).1 ∧ (m.outcome v).2.1 = (ending (m (v, #[]))).2 := by
  rw [outcome]
  cases m (v, #[]) <;> exact ⟨rfl, rfl⟩

section Endings

variable {σ τ α : Type} [AtomicSystem σ α] [AtomicSystem τ α] [Scalar α] {xs : Systems σ}

/-- How a calculation on the systems themselves ends, after any trace. -/
theorem Calculator.ending_compute (c : Calculator α) (workers : Workers)
    (samples features : Selection) (d : Descriptor α) (trace : Trace) :
    let run := c.courseDirectly workers samples features xs (trace.push (.enter .compute))
    ending (c.compute workers ⟨false, samples, features⟩ ((xs, d), trace))
      = (run.stage.result, run.systems, run.stage.apply d) := by
  rw [compute, within]
  simp only [Bool.false_eq_true, if_false, computeDirectly_apply, Course.ending]
  cases (c.courseDirectly workers samples features xs _).stage <;> rfl

/-- Systems that mirror each other have the same descriptor computed for them, perhaps by other
workers. Strictly, the same ones do it. -/
theorem Mirroring.exists_alike_compute {strict : Prop} {rel : σ → τ → Prop}
    (h : Mirroring strict rel) (c : Calculator α) (workers : Workers)
    (samples features : Selection) {ys : Systems τ} (related : Pointwise rel xs ys)
    (d : Descriptor α) (trace : Trace) : ∃ workers' : Workers, (strict → workers' = workers) ∧
      let x := ending (c.compute workers ⟨false, samples, features⟩ ((xs, d), trace))
      let y := (c.compute workers' ⟨false, samples, features⟩).outcome (ys, d)
      Agree strict x.1 y.1 ∧ (strict ∨ x.1 = .ok () → x.2.2 = y.2.1.2) := by
  obtain ⟨workers', same, answers, left⟩ := h.exists_alike_courseDirectly c workers samples features
    related (trace.push (.enter .compute)) #[.enter .compute]
  refine ⟨workers', same, ?_⟩
  obtain ⟨answer', left'⟩ := outcome_eq_ending
    (c.compute workers' ⟨false, samples, features⟩) (ys, d)
  simp only [answer', left', Calculator.ending_compute]
  exact ⟨answers, fun either => left either d⟩

end Endings

/-! ### Statuses -/

section Statuses

open Foreign

theorem Foreign.Status.ofOutcome_of_systemFails {r : Except Error Unit} (h : SystemFails r) :
    ofOutcome r = .system := by
  obtain ⟨cause, rfl⟩ := h
  rfl

variable {σ τ : Type} [AtomicSystem σ Float] [AtomicSystem τ Float] {xs : Systems σ}
  {rel : σ → τ → Prop}

/-- If systems fail where the others do, workers that choose alike get the same status. -/
theorem Mirroring.status_eq (h : Mirroring True rel) (c : Calculator Float) (workers : Workers)
    (samples features : Selection) {ys : Systems τ} (related : Pointwise rel xs ys)
    (d : Descriptor Float) (trace : Trace) :
    let x := ending (c.compute workers ⟨false, samples, features⟩ ((xs, d), trace))
    let y := (c.compute workers ⟨false, samples, features⟩).outcome (ys, d)
    Status.ofOutcome x.1 = .ofOutcome y.1 ∧ x.2.2 = y.2.1.2 := by
  intro x y
  obtain ⟨workers', same, answers, left⟩ :=
    h.exists_alike_compute c workers samples features related d trace
  cases same trivial
  refine ⟨?_, left (.inl trivial)⟩
  rcases answers with same | ⟨fails, also⟩
  · exact congrArg Status.ofOutcome same
  · have system := Status.ofOutcome_of_systemFails fails
    exact system.trans (Status.ofOutcome_of_systemFails (also trivial)).symm

/-- Unless the status is that of a system error, nothing but what is told counts: some workers get the
same for the others. -/
theorem Mirroring.exists_eq_of_status_ne {strict : Prop} (h : Mirroring strict rel)
    (c : Calculator Float) (workers : Workers) (samples features : Selection) {ys : Systems τ}
    (related : Pointwise rel xs ys) (d : Descriptor Float) (trace : Trace) :
    let x := ending (c.compute workers ⟨false, samples, features⟩ ((xs, d), trace))
    Status.ofOutcome x.1 ≠ .system → ∃ workers' : Workers, (strict → workers' = workers) ∧
      let y := (c.compute workers' ⟨false, samples, features⟩).outcome (ys, d)
      x.1 = y.1 ∧ (strict ∨ x.1 = .ok () → x.2.2 = y.2.1.2) := by
  intro x other
  obtain ⟨workers', same, answers, left⟩ :=
    h.exists_alike_compute c workers samples features related d trace
  refine ⟨workers', same, ?_, left⟩
  exact answers.resolve_right fun fails => other (Status.ofOutcome_of_systemFails fails.1)

end Statuses

namespace Foreign

/-! ### Calls for a calculation -/

namespace Call

variable {s : Session} {calculator descriptor : Option Handle} {c : Calculator Float}
  {d : Descriptor Float}

/-- If all is there that a caller has to give, the calculation is made. -/
theorem ensures_compute_made {σ : Type} [AtomicSystem σ Float] {place : Option (Systems σ)}
    (hc : s.calculators.get? calculator = some c) (hd : s.descriptors.get? descriptor = some d)
    {count : Nat} (enough : count ≤ (place.getD #[]).size) (workers : Workers)
    (options : CalculationOptions) :
    Ensures (Call.compute calculator descriptor workers count options) (s, place) fun r w =>
      ∃ trace,
        let ended :=
          ending (c.compute workers options (((place.getD #[]).extract 0 count, d), trace))
        r = ended.1 ∧ w.1.descriptors.get? descriptor = some ended.2.2 := by
  refine ensures_compute workers options (fun missing => ?_) fun c' d' hc' hd' trace => ?_
  · rcases missing with none | none | ⟨rfl, some⟩
    · cases hc.symm.trans none
    · cases hd.symm.trans none
    · exact absurd (Nat.le_zero.1 enough) some
  · cases hc.symm.trans hc'
    cases hd.symm.trans hd'
    exact ⟨trace, rfl, Store.get?_set hd _⟩

/-- What a caller gets of the calculation. -/
theorem run_compute {σ : Type} [AtomicSystem σ Float] {place : Option (Systems σ)}
    (hc : s.calculators.get? calculator = some c) (hd : s.descriptors.get? descriptor = some d)
    {count : Nat} (enough : count ≤ (place.getD #[]).size) (workers : Workers)
    (options : CalculationOptions) : ∃ trace,
      let ended := ending (c.compute workers options (((place.getD #[]).extract 0 count, d), trace))
      let reply := s.run place (Call.compute calculator descriptor workers count options)
      reply.status = .ofOutcome ended.1 ∧
        reply.session.descriptors.get? descriptor = some ended.2.2 := by
  obtain ⟨trace, answer, left⟩ := (ensures_compute_made hc hd enough workers options).outcome
  refine ⟨trace, ?_, ?_⟩
  · rw [← answer]
    rfl
  · rw [← left, Session.descriptors_run]

/-! ### Calculations on systems behind callbacks -/

/-- The selection of a caller: all rows for a null pointer, otherwise the rows that it points to, also
if there are none of them. -/
def selected (rows : Option (List Nat)) (count : Nat) : Selection :=
  match rows with
  | none => .all
  | some rows => .rows (rows.take count)

theorem selection_take (rows : Option (List Nat)) (count : Nat) :
    selection (rows.map (·.take count)) = selected rows count := by
  cases rows <;> rfl

/-- A calculation for systems behind callbacks does to the descriptor what it does, with the same
choices of workers, for systems that stand for them, and answers the status of the same outcome. There
are such systems for all callbacks. If it makes a difference what would be told where nothing is told,
whatever workers choose then, this status is that of a system error. -/
theorem compute_refines {σ : Type} {place : Option (Systems (ForeignSystem σ Float))}
    (hc : s.calculators.get? calculator = some c) (hd : s.descriptors.get? descriptor = some d)
    {count : Nat} (enough : count ≤ (place.getD #[]).size) (workers : Workers)
    (samples features : Option (List Nat)) (samplesCount featuresCount : Nat) :
    let foreign := (place.getD #[]).extract 0 count
    let reply := s.run place (Call.compute calculator descriptor workers count
      ⟨false, selection (samples.map (·.take samplesCount)),
        selection (features.map (·.take featuresCount))⟩)
    let options : CalculationOptions :=
      ⟨false, selected samples samplesCount, selected features featuresCount⟩
    (∃ natives : Systems (ToldSystem σ Float), Stand True foreign natives) ∧
    ∀ {τ : Type} [AtomicSystem τ Float] (natives : Systems τ), Stand True foreign natives →
      let native := (c.compute workers options).outcome (natives, d)
      reply.session.descriptors.get? descriptor = some native.2.1.2 ∧
      (reply.status = .success ↔ native.1 = .ok ()) ∧
      (∀ e, native.1 = .error e → reply.status = .ofError e) ∧
      ∀ {υ : Type} [AtomicSystem υ Float] (others : Systems υ), Stand False foreign others →
        (∀ workers', let other := (c.compute workers' options).outcome (others, d)
          other.1 ≠ native.1 ∨ native.1 = .ok () ∧ other.2.1.2 ≠ native.2.1.2) →
        reply.status = .system := by
  intro foreign reply options
  obtain ⟨trace, status, left⟩ : ∃ trace,
      let ended := ending (c.compute workers options ((foreign, d), trace))
      reply.status = .ofOutcome ended.1 ∧
        reply.session.descriptors.get? descriptor = some ended.2.2 := by
    simp only [reply, selection_take]
    exact run_compute hc hd enough workers options
  refine ⟨⟨_, stand_told foreign⟩, ?_⟩
  rintro τ _ natives ⟨rel, stands, related⟩ native
  obtain ⟨same_status, same_left⟩ := stands.mirroring.status_eq c workers
    (selected samples samplesCount) (selected features featuresCount) related d trace
  have status_native : reply.status = .ofOutcome native.1 := status.trans same_status
  refine ⟨left.trans (congrArg some same_left), ?_, ?_, ?_⟩
  · rw [status_native, Status.ofOutcome_eq_success]
  · intro e failed
    rw [status_native, failed]
    rfl
  -- unless it is a system error, some workers get what the systems behind callbacks get
  · rintro υ _ others ⟨rel', stands', related'⟩ differs
    by_contra not_system
    rw [status] at not_system
    obtain ⟨_, the_same, same, -⟩ := stands.mirroring.exists_eq_of_status_ne c workers
      (selected samples samplesCount) (selected features featuresCount) related d trace not_system
    cases the_same trivial
    obtain ⟨workers', -, same', same_left'⟩ := stands'.mirroring.exists_eq_of_status_ne c workers
      (selected samples samplesCount) (selected features featuresCount) related' d trace not_system
    rcases differs workers' with differs | ⟨finished, differs⟩
    · exact differs (same'.symm.trans same)
    · exact differs ((same_left' (.inr (same.trans finished))).symm.trans same_left)

end Call

/-- Callbacks for one atom without neighbors. The number of atoms is not told if `counts` is false. -/
def atomCallbacks (counts : Bool) : Callbacks Unit Float where
  size := if counts then some fun _ => ⟨.success, 1⟩ else none
  species := some fun _ => ⟨.success, some [1]⟩
  positions := some fun _ => ⟨.success, some [⟨0, 0, 0⟩]⟩
  cell := none
  computeNeighbors := some fun _ data => (⟨.success, data⟩, #[])
  pairs := some fun _ => ⟨.success, ⟨none, 0⟩⟩
  pairsContaining := some fun (_, atom) =>
    ⟨if atom = 0 then .success else .invalidParameter, ⟨none, 0⟩⟩

/-- The same atom in a system that refuses what is not told. -/
def toldAtom (counts : Bool) (cutoffs : Array Float) : RecordedSystem Float :=
  { boxless with
    refused := if counts then [.cell] else [.cell, .size, .species, .positions]
    cutoffs := cutoffs }

/-- It stands for the callbacks, if it tells what they tell and, strictly, nothing else. -/
theorem stand_toldAtom {strict : Prop} {counts counts' : Bool}
    (h : counts = true ∧ counts' = true ∨ counts = false ∧ (strict → counts' = false)) :
    Stand strict #[(⟨atomCallbacks counts, ()⟩ : ForeignSystem Unit Float)]
      #[toldAtom counts' #[]] := by
  let rel (s : ForeignSystem Unit Float) (t : RecordedSystem Float) : Prop :=
    s = ⟨atomCallbacks counts, ()⟩ ∧ ∃ cutoffs, t = toldAtom counts' cutoffs
  refine ⟨rel, ?_, rfl, fun i hi hi' => ?_⟩
  · constructor
    case size | species | positions =>
      rintro s t ⟨rfl, cutoffs, rfl⟩
      rcases h with ⟨rfl, rfl⟩ | ⟨rfl, untold⟩
      · rfl
      · intro strictly
        cases untold strictly
        exact ⟨_, rfl⟩
    case pairs =>
      rintro s t ⟨rfl, cutoffs, rfl⟩
      cases counts <;> cases counts' <;> rfl
    case pairsContaining =>
      rintro s t ⟨rfl, cutoffs, rfl⟩ atom
      cases atom with
      | zero => cases counts <;> cases counts' <;> rfl
      | succ atom => cases counts <;> cases counts' <;> exact fun _ => ⟨_, rfl⟩
    case neighbors =>
      rintro s t ⟨rfl, cutoffs, rfl⟩ cutoff s' told trace
      cases told
      cases counts' <;> exact ⟨rfl, rfl, _, rfl⟩
    case noNeighbors =>
      rintro - s t ⟨rfl, cutoffs, rfl⟩ cutoff told
      cases told
  · obtain rfl : i = 0 := Nat.lt_one_iff.1 hi'
    exact ⟨rfl, _, rfl⟩

/-- The missing callback for the cell is not needed. The one for the number of atoms is: if one were
told, the calculation would be finished. -/
theorem compute_refines_toldAtom :
    let s : Session := { Session.initial with
      calculators := Store.empty.insert (sums false)
      descriptors := Store.empty.insert .new }
    let place (counts : Bool) : Option (Systems (ForeignSystem Unit Float)) :=
      some #[⟨atomCallbacks counts, ()⟩]
    let status (counts : Bool) :=
      (s.run (place counts) (Call.compute (some 0) (some 0) .inOrder 1 .all)).status
    status true = .success ∧ status false = .system := by
  intro s place status
  have hc : s.calculators.get? (some 0) = some (sums false) := rfl
  have hd : s.descriptors.get? (some 0) = some .new := rfl
  have enough (counts : Bool) : 1 ≤ ((place counts).getD #[]).size := Nat.le_refl 1
  have finishes (workers : Workers) :
      ((sums false).compute workers .all |>.outcome (#[toldAtom true #[]], .new)).1 = .ok () := by
    obtain ⟨d, finished⟩ := finished_boxless workers
    change ((sums false).compute workers .all |>.outcome (#[boxless], .new)).1 = _
    rw [Calculator.outcome_compute, finished]
    rfl
  constructor
  · obtain ⟨-, refines⟩ := Call.compute_refines hc hd (enough true) .inOrder none none 0 0
    obtain ⟨-, success, -⟩ := refines #[toldAtom true #[]] (stand_toldAtom (.inl ⟨rfl, rfl⟩))
    exact success.2 (finishes .inOrder)
  · obtain ⟨-, refines⟩ := Call.compute_refines hc hd (enough false) .inOrder none none 0 0
    obtain ⟨-, -, -, needed⟩ := refines #[toldAtom false #[]]
      (stand_toldAtom (.inr ⟨rfl, fun _ => rfl⟩))
    refine needed #[toldAtom true #[]] (stand_toldAtom (.inr ⟨rfl, nofun⟩)) fun workers => .inl ?_
    have refused : ((sums false).compute .inOrder .all
        |>.outcome (#[toldAtom false #[]], .new)).1
          = .error (.system (.recordedFailure "size")) := rfl
    intro same
    cases (finishes workers).symm.trans (same.trans refused)

end Foreign
end Atomistic
