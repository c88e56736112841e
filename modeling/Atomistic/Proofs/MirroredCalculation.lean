import Atomistic.Proofs.KeptRelations
import Atomistic.Proofs.Simulation

/-!
# Calculations on systems that mirror each other

Systems of one kind mirror those of another one when they answer all questions in the same way, now
and after any requests for neighbors. A calculation takes no notice of the kind of its systems: it
builds the same tables and the same values for both, and where a system does not answer, it is given
up with a system error.
-/

namespace Atomistic

open Traced

variable {σ τ α : Type} {strict : Prop} {rel : σ → τ → Prop} [AtomicSystem σ α] [AtomicSystem τ α]

/-- Related systems give the same answers, and are related again after computing neighbors. No
calculation on the systems themselves asks for their cells. -/
structure Mirroring (strict : Prop) (rel : σ → τ → Prop) [AtomicSystem σ α] [AtomicSystem τ α] :
    Prop where
  size : ∀ s t, rel s t → Agree strict (AtomicSystem.size s) (AtomicSystem.size t)
  species : ∀ s t, rel s t → Agree strict (AtomicSystem.species s) (AtomicSystem.species t)
  positions : ∀ s t, rel s t → Agree strict (AtomicSystem.positions s) (AtomicSystem.positions t)
  pairs : ∀ s t, rel s t → Agree strict (AtomicSystem.pairs s) (AtomicSystem.pairs t)
  pairsContaining : ∀ s t, rel s t → ∀ atom,
    Agree strict (AtomicSystem.pairsContaining s atom) (AtomicSystem.pairsContaining t atom)
  computeNeighbors : ∀ cutoff : α, Mirrors strict rel (AtomicSystem.computeNeighbors cutoff)
    (AtomicSystem.computeNeighbors cutoff)

namespace Mirroring

variable (h : Mirroring strict rel)
include h

/-! ### Systems -/

omit [AtomicSystem σ α] [AtomicSystem τ α] h in
theorem mirrors_ask {β : Type} {question : σ → Except Error β} {question' : τ → Except Error β}
    (agree : ∀ s t, rel s t → Agree strict (question s) (question' t)) (i : Nat) :
    Mirrors strict (Pointwise rel) (Systems.ask i question) (Systems.ask i question') :=
  mirrors_atIndex (Traced.mirrors_ask agree) i

omit [AtomicSystem σ α] [AtomicSystem τ α] h in
theorem mirrors_numbers : Mirrors strict (Pointwise rel) Systems.numbers Systems.numbers := by
  intro xs ys related
  refine mirrorsAt_value_bind ?_
  rw [related.size_eq]
  exact mirrors_pure _ xs ys related

/-! ### Calculations -/

variable [Scalar α]

theorem agree_sumAround {s : σ} {t : τ} (related : rel s t) (center : Nat) :
    Agree strict (DummyKernel.sumAround s center) (DummyKernel.sumAround t center) := by
  refine agree_bind (h.positions s t related) fun positions => ?_
  refine agree_bind agree_rfl fun own => ?_
  exact agree_bind (h.pairsContaining s t related center) fun _ => agree_rfl

omit [Scalar α] [AtomicSystem σ α] [AtomicSystem τ α] h in
/-- Elements of related arrays are related, and missing where the others are. -/
theorem elementAt_cases {xs : Systems σ} {ys : Systems τ} (related : Pointwise rel xs ys) (i : Nat) :
    (∃ s t, elementAt xs i = .ok s ∧ elementAt ys i = .ok t ∧ rel s t) ∨
      ∃ e, elementAt xs i = .error e ∧ elementAt ys i = .error e := by
  rw [elementAt, elementAt]
  by_cases hx : i < xs.size
  · have hy : i < ys.size := related.size_eq ▸ hx
    rw [Array.getElem?_eq_getElem hx, Array.getElem?_eq_getElem hy]
    exact .inl ⟨_, _, rfl, rfl, related.each i hx hy⟩
  · have hy : ¬i < ys.size := related.size_eq ▸ hx
    rw [Array.getElem?_eq_none (by omega), Array.getElem?_eq_none (by omega)]
    exact .inr ⟨_, rfl, rfl⟩

omit [Scalar α] [AtomicSystem σ α] [AtomicSystem τ α] h in
theorem centerOf_cases {xs : Systems σ} {ys : Systems τ} (related : Pointwise rel xs ys)
    (environment : List Int) :
    (∃ s t center, DummyKernel.centerOf xs environment = .ok (s, center) ∧
      DummyKernel.centerOf ys environment = .ok (t, center) ∧ rel s t) ∨
    ∃ e, DummyKernel.centerOf xs environment = .error e ∧
      DummyKernel.centerOf ys environment = .error e := by
  rw [DummyKernel.centerOf, DummyKernel.centerOf]
  cases positionAt environment 0 with
  | error e => exact .inr ⟨e, rfl, rfl⟩
  | ok i =>
    rcases elementAt_cases related i with ⟨s, t, hs, ht, alike⟩ | ⟨e, hs, ht⟩
    · cases positionAt environment 1 with
      | error e =>
        refine .inr ⟨e, ?_, ?_⟩
        · exact except_bind_eq_error.2 (.inr ⟨i, rfl, except_bind_eq_error.2 (.inr ⟨s, hs, rfl⟩)⟩)
        · exact except_bind_eq_error.2 (.inr ⟨i, rfl, except_bind_eq_error.2 (.inr ⟨t, ht, rfl⟩)⟩)
      | ok center =>
        refine .inl ⟨s, t, center, ?_, ?_, alike⟩
        · exact except_bind_eq_ok.2 ⟨i, rfl, except_bind_eq_ok.2 ⟨s, hs, rfl⟩⟩
        · exact except_bind_eq_ok.2 ⟨i, rfl, except_bind_eq_ok.2 ⟨t, ht, rfl⟩⟩
    · refine .inr ⟨e, ?_, ?_⟩
      · exact except_bind_eq_error.2 (.inr ⟨i, rfl, except_bind_eq_error.2 (.inl hs)⟩)
      · exact except_bind_eq_error.2 (.inr ⟨i, rfl, except_bind_eq_error.2 (.inl ht)⟩)

theorem alike_row (k : DummyKernel α) {xs : Systems σ} {ys : Systems τ}
    (related : Pointwise rel xs ys) (features : List DummyFeature) (environment : List Int) :
    RowRun.Alike strict (k.row xs features environment) (k.row ys features environment) := by
  rw [DummyKernel.row, DummyKernel.row]
  rcases centerOf_cases related environment with ⟨s, t, center, hs, ht, alike⟩ | ⟨e, hs, ht⟩
  · rw [hs, ht]
    refine RowRun.alike_ofColumns (fun feature => ?_) features
    cases feature with
    | indexDelta => exact agree_rfl
    | coordinateSum => exact h.agree_sumAround alike center
  · rw [hs, ht]
    exact .inl rfl

omit [Scalar α] in
/-- That systems of both kinds answer alike is kept in calculations. -/
theorem kept : Kept fun _ (m : Traced (Systems σ) _) (n : Traced (Systems τ) _) =>
    Mirrors strict (Pointwise rel) m n where
  ofExcept := mirrors_ofExcept
  bind := mirrors_bind
  value_bind rest v w related := mirrorsAt_value_bind (rest v w v w related)
  log _ _ _ _ := mirrors_log
  within _ := mirrors_within
  numbers := mirrors_numbers
  size := mirrors_ask h.size
  species := mirrors_ask h.species
  pairs := mirrors_ask h.pairs
  computeNeighbors cutoff := mirrors_atIndex (h.computeNeighbors cutoff)

end Mirroring

/-! ### Stages -/

namespace Stage

/-- Two calculations end with the same answer, or the first one with a system error and, strictly, the
second one too. The same is done to their descriptors if they end well or, strictly, in any case. -/
def Alike (strict : Prop) (x y : Stage α) : Prop :=
  Agree strict x.result y.result ∧ (strict ∨ x.result = .ok () → ∀ d, x.apply d = y.apply d)

theorem Alike.refl (x : Stage α) : Alike strict x x := ⟨agree_rfl, fun _ _ => rfl⟩

/-- The stage that is reached after a computation, which may be the last one. -/
def after {s β : Type} (stop : Error → Stage α) (go : β → s × Trace → Stage α) :
    EStateM.Result Error (s × Trace) β → Stage α
  | .error e _ => stop e
  | .ok b w => go b w

/-- The stage that is reached when a kernel leaves this. -/
def left : Descriptor α × Except Error Unit → Stage α
  | (left, .error e) => .unfilled e left
  | (filled, .ok ()) => .finished filled

/-- The stage that is reached when rows are shared like this. -/
def ofRows [Scalar α] (d : Descriptor α) (features : List DummyFeature)
    (shared : List (List α) × Except Error Unit) : Stage α :=
  let written := { d with values := d.values.write shared.1 }
  match shared.2 with
  | .error e => .unfilled e written
  | .ok () =>
    let slopes := features.map DummyFeature.slope
    .finished { written with
      gradients := d.gradients.map fun g =>
        { g with values := g.values.write (List.replicate g.values.rows slopes) } }

theorem result_ofRows [Scalar α] (d : Descriptor α) (features : List DummyFeature)
    (shared : List (List α) × Except Error Unit) : (ofRows d features shared).result = shared.2 := by
  obtain ⟨rows, _ | _⟩ := shared <;> rfl

/-- Rows that are shared alike lead to stages that are alike. -/
theorem alike_ofRows [Scalar α] {d : Descriptor α} {features : List DummyFeature}
    {x y : List (List α) × Except Error Unit} (outcomes : Agree strict x.2 y.2)
    (written : strict ∨ x.2 = .ok () → x.1 = y.1) :
    Alike strict (ofRows d features x) (ofRows d features y) := by
  rw [Alike, result_ofRows, result_ofRows]
  refine ⟨outcomes, fun either d' => ?_⟩
  obtain ⟨rows, outcome⟩ := x
  obtain ⟨rows', outcome'⟩ := y
  cases written either
  rcases outcomes with same | ⟨⟨cause, fails⟩, also⟩
  · cases same
    rfl
  · cases fails
    rcases either with strictly | ⟨⟨⟩⟩
    obtain ⟨cause', fails'⟩ := also strictly
    cases fails'
    rfl

/-- Computations that end alike lead to stages that are alike, if they are so wherever there are
answers. What a descriptor becomes when there is none is the same for all errors. -/
theorem exists_alike_after {s t β : Type} {rel : s → t → Prop} {workers : Workers}
    {x : EStateM.Result Error (s × Trace) β} {y : EStateM.Result Error (t × Trace) β}
    {stop : Error → Stage α} {go : β → s × Trace → Stage α}
    {go' : Workers → β → t × Trace → Stage α} (h : Traced.Alike strict rel (ending x) (ending y))
    (result_stop : ∀ e, (stop e).result = .error e)
    (apply_stop : ∀ e e' d, (stop e).apply d = (stop e').apply d)
    (rest : ∀ b v w, rel v.1 w.1 → ∃ workers', (strict → workers' = workers) ∧
      Alike strict (go b v) (go' workers' b w)) :
    ∃ workers', (strict → workers' = workers) ∧
      Alike strict (after stop go x) (after stop (go' workers') y) := by
  rcases h with ⟨same, related⟩ | ⟨⟨cause, fails⟩, also⟩
  · rcases x with ⟨b, v⟩ | ⟨e, v⟩ <;> rcases y with ⟨b', w⟩ | ⟨e', w⟩ <;> cases same
    · exact rest b v w related
    · exact ⟨workers, fun _ => rfl, .refl _⟩
  · rcases x with ⟨b, v⟩ | ⟨e, v⟩ <;> cases fails
    have strictly_fails (strictly : strict) (workers' : Workers) :
        ∃ cause', after stop (go' workers') y = stop (.system cause') := by
      obtain ⟨cause', fails'⟩ := also strictly
      rcases y with ⟨b', w⟩ | ⟨e', w⟩ <;> cases fails'
      exact ⟨cause', rfl⟩
    refine ⟨workers, fun _ => rfl, .inr ⟨⟨cause, result_stop _⟩, fun strictly => ?_⟩, ?_⟩
    · obtain ⟨cause', stopped⟩ := strictly_fails strictly workers
      exact ⟨cause', stopped ▸ result_stop _⟩
    · rintro (strictly | finished) d
      · obtain ⟨cause', stopped⟩ := strictly_fails strictly workers
        exact stopped ▸ apply_stop ..
      · cases (result_stop _).symm.trans finished

end Stage

section Stages

variable [Scalar α]

/-- The kernel for tests has its rows shared once it has found out what they are about. -/
theorem DummyKernel.after_fill (k : DummyKernel α) (workers : Workers) (d : Descriptor α)
    (systems : Systems σ) (trace : Trace) :
    Stage.after (.unfilled · d) (fun left _ => .left left)
        ((Kernel.dummy k).fill workers d (systems, trace))
      = .after (.unfilled · d) (fun features w => .ofRows d features
          (workers.share (d.environments.rows.map (k.row w.1 features))))
        (k.survey d.environments d.features (systems, trace.push (.enter .dummyCalculator))) := by
  simp only [Kernel.fill, bind_apply, DummyKernel.values, within]
  cases k.survey d.environments d.features (systems, trace.push (.enter .dummyCalculator)) with
  | error e w => rfl
  | ok features w =>
    obtain ⟨systems, trace⟩ := w
    simp only [value_apply, pure_apply, Stage.after]
    rcases workers.share (d.environments.rows.map (k.row systems features)) with ⟨rows, _ | _⟩ <;> rfl

/-- What a calculation reaches once a descriptor is ready. -/
theorem Calculator.stage_courseDirectly (c : Calculator α) (workers : Workers)
    (samples features : Selection) (systems : Systems σ) (trace : Trace) :
    (c.courseDirectly workers samples features systems trace).stage
      = .after .unprepared (fun d w => .after (.unfilled · d) (fun left _ => .left left)
        (c.kernel.fill workers d w)) (c.ready samples features (systems, trace)) := by
  rw [courseDirectly]
  cases c.ready samples features (systems, trace) with
  | error e w => rfl
  | ok d w =>
    dsimp only [Stage.after]
    rcases c.kernel.fill workers d w with ⟨⟨left, _ | _⟩, w'⟩ | ⟨e, w'⟩ <;> rfl

variable {xs : Systems σ} {ys : Systems τ}

/-- A kernel does the same for both, perhaps with other workers. Strictly, with the same ones. -/
theorem Mirroring.exists_alike_fill (h : Mirroring strict rel) (k : Kernel α) (workers : Workers)
    (d : Descriptor α) (related : Pointwise rel xs ys) (trace trace' : Trace) :
    ∃ workers' : Workers, (strict → workers' = workers) ∧ Stage.Alike strict
      (.after (.unfilled · d) (fun left _ => .left left) (k.fill workers d (xs, trace)))
      (.after (.unfilled · d) (fun left _ => .left left) (k.fill workers' d (ys, trace'))) := by
  cases k with
  | sortedDistances k =>
    have filled := h.kept.bind (h.kept.sortedDistances k d.environments d.features) fun rows =>
      h.kept.answer (({ d with values := d.values.write rows }, .ok ()) : _ × Except Error Unit)
    exact Stage.exists_alike_after (filled xs ys related trace trace') (fun _ => rfl)
      (fun _ _ _ => rfl) fun left v w _ => ⟨workers, fun _ => rfl, .refl _⟩
  | dummy k =>
    simp only [k.after_fill]
    refine Stage.exists_alike_after (h.kept.survey k d.environments d.features xs ys related
      (trace.push (.enter .dummyCalculator)) (trace'.push (.enter .dummyCalculator)))
      (fun _ => rfl) (fun _ _ _ => rfl) fun features v w related' => ?_
    have rows : List.Forall₂ (RowRun.Alike strict) (d.environments.rows.map (k.row v.1 features))
        (d.environments.rows.map (k.row w.1 features)) := by
      rw [List.forall₂_map_left_iff, List.forall₂_map_right_iff, List.forall₂_same]
      exact fun environment _ => h.alike_row k related' features environment
    obtain ⟨workers', same, outcomes, written⟩ := Workers.share_of_alike rows workers
    exact ⟨workers', same, Stage.alike_ofRows outcomes written⟩

/-- A calculation does the same for both, perhaps with other workers. Strictly, with the same ones. -/
theorem Mirroring.exists_alike_courseDirectly (h : Mirroring strict rel) (c : Calculator α)
    (workers : Workers) (samples features : Selection) (related : Pointwise rel xs ys)
    (trace trace' : Trace) :
    ∃ workers' : Workers, (strict → workers' = workers) ∧
      Stage.Alike strict (c.courseDirectly workers samples features xs trace).stage
        (c.courseDirectly workers' samples features ys trace').stage := by
  simp only [c.stage_courseDirectly]
  refine Stage.exists_alike_after (h.kept.ready c samples features xs ys related trace trace')
    (fun _ => rfl) (fun _ _ _ => rfl) fun d v w related' => ?_
  exact h.exists_alike_fill c.kernel workers d related' v.2 w.2

end Stages

end Atomistic
