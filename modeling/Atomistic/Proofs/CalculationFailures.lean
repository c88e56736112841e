import Atomistic.Proofs.AccountedGradients
import Atomistic.Proofs.AccountedKernels
import Atomistic.Proofs.CalculationCourse
import Atomistic.Proofs.PickedRows

/-!
# How calculations fail

A calculator that was created has parameters that make sense. On systems that keep their contract it
then fails in two ways only: the caller selected environments or features that there are not, which
is a bad parameter, or one of the calls that it makes to the systems failed, and its error is handed
on. No assumption of the library is ever broken on the way.
-/

namespace Atomistic

open Traced Systems

variable {σ α β : Type}

/-! ### What a kernel works with -/

namespace DummyKernel

theorem namesValid_features : NamesValid ["index_delta", "x_y_z"] := ⟨by decide, by decide⟩

theorem width_features : ∀ row ∈ ([[1, 0], [0, 1]] : List (List Int)), row.length = 2 := by decide

theorem nodup_features : ([[1, 0], [0, 1]] : List (List Int)).Nodup := by decide

end DummyKernel

namespace Kernel

/-- All features. -/
def featureTable : Kernel α → Labels
  | sortedDistances k => {
      names := ["neighbor"]
      rows := (List.range k.maxNeighbors).map fun (rank : Nat) => [(rank : Int)]
      names_valid := ⟨by decide, by decide⟩
      width := by
        intro row hrow
        obtain ⟨rank, -, rfl⟩ := List.mem_map.1 hrow
        rfl
      nodup := List.nodup_range.map fun rank rank' same =>
        Int.natCast_inj.1 (List.singleton_inj.1 same) }
  | dummy _ => {
      names := ["index_delta", "x_y_z"]
      rows := [[1, 0], [0, 1]]
      names_valid := DummyKernel.namesValid_features
      width := DummyKernel.width_features
      nodup := DummyKernel.nodup_features }

/-- All environments of systems with these accounts. -/
def environmentTable (accounts : Nat → Account α) (count : Nat) : Kernel α → Labels
  | sortedDistances _ => Account.atomSpeciesTable accounts count false
  | dummy _ => Account.atomTable accounts count

/-- The calls that finding all environments needs. -/
def environmentCalls (count : Nat) : Kernel α → Set SystemCall
  | sortedDistances _ => ⋃ i ∈ List.range count, visit i 0 {.species, .pairs}
  | dummy _ => ⋃ i ∈ List.range count, {⟨i, 0, .size⟩}

/-- How often systems were given their neighbors when all environments have been found. -/
def countsFound (count : Nat) : Kernel α → Nat → Nat
  | sortedDistances _ => raise (fun _ => 0) (List.range count)
  | dummy _ => fun _ => 0

/-- The calls that finding the gradient rows of some environments needs. -/
def gradientCalls (environments : Labels) (k : Kernel α) : Set SystemCall :=
  if k.computesGradients then ⋃ i ∈ environments.systems, visit i 0 {.pairs} else ∅

/-- How often systems were given their neighbors when the gradient rows have been found. -/
def countsPrepared (count : Nat) (environments : Labels) (k : Kernel α) : Nat → Nat :=
  if k.computesGradients then raise (k.countsFound count) environments.systems
  else k.countsFound count

/-- How often the systems of some environments were given their neighbors before the values of
these environments are found. -/
def valueRound : Kernel α → Nat
  | sortedDistances _ => 1
  | dummy k => if k.gradients then 1 else 0

/-- The calls that the values of some environments need. -/
def valueCalls (environments features : Labels) : Kernel α → Set SystemCall
  | k@(sortedDistances _) => ⋃ i ∈ environments.systems, visit i k.valueRound {.species, .pairs}
  | k@(dummy _) => (⋃ i ∈ environments.systems, {⟨i, k.valueRound, .neighbors⟩}) ∪
      DummyKernel.sumCalls (k.valueRound + 1) environments features

/-- All calls of a calculation on `count` systems for some environments and features. -/
def calls (count : Nat) (environments features : Labels) (k : Kernel α) : Set SystemCall :=
  k.environmentCalls count ∪ (k.gradientCalls environments ∪ k.valueCalls environments features)

variable [Scalar α] {k : Kernel α}

theorem accepted_of_validate (valid : k.validate = .ok ()) :
    Scalar.isPositiveFinite k.cutoff = true := by
  have accepted {cutoff : α} (h : checkCutoff cutoff = .ok ()) :
      Scalar.isPositiveFinite cutoff = true := by
    rw [checkCutoff] at h
    split at h
    · assumption
    · cases h
  cases k with
  | sortedDistances k =>
    obtain ⟨_, h, -⟩ := except_bind_eq_ok.1 valid
    exact accepted h
  | dummy k => exact accepted valid

theorem check_of_validate (valid : k.validate = .ok ()) : k.strategy.check = .ok () := by
  have accepted := accepted_of_validate valid
  cases k <;> exact if_pos accepted

/-- The features of a kernel whose parameters make sense are all of them. -/
theorem features_eq (valid : k.validate = .ok ()) : k.features = .ok k.featureTable := by
  cases k with
  | dummy k => exact Labels.ofRows_eq_ok.2 ⟨rfl, rfl⟩
  | sortedDistances k =>
    have few : k.maxNeighbors ≤ maxLabel := by
      obtain ⟨_, -, h⟩ := except_bind_eq_ok.1 valid
      by_contra many
      rw [if_pos (by omega)] at h
      cases h
    have ranks : (List.range k.maxNeighbors).mapM (fun i => do return [← labelOfNat i])
        = .ok ((List.range k.maxNeighbors).map fun (rank : Nat) => [(rank : Int)]) := by
      refine except_mapM_eq_map fun i hi => ?_
      rw [List.mem_range] at hi
      rw [labelOfNat, if_pos (by omega)]
      rfl
    exact except_bind_eq_ok.2 ⟨_, ranks, Labels.ofRows_eq_ok.2 ⟨rfl, rfl⟩⟩

end Kernel

/-! ### Steps -/

/-- A selection of environments selects atoms that are there. -/
theorem Kernel.within_of_subset {k : Kernel α} {accounts : Nat → Account α} {count : Nat}
    {environments : Labels} (sub : environments.rows ⊆ (k.environmentTable accounts count).rows) :
    environments.Within accounts count := by
  cases k with
  | sortedDistances k => exact Labels.within_of_subset_atomSpeciesTable sub
  | dummy k => exact Labels.within_of_subset_atomTable sub

/-- The systems of some environments have been given their neighbors equally often. -/
theorem Kernel.countsPrepared_eq {k : Kernel α} {accounts : Nat → Account α} {count : Nat}
    {environments : Labels} (within : environments.Within accounts count) {i : Nat}
    (hi : i ∈ environments.systems) :
    k.countsPrepared count environments i = k.valueRound := by
  cases k with
  | sortedDistances k =>
    change raise (fun _ => 0) (List.range count) i = 1
    exact raise_of_mem (List.mem_range.2 (within.lt_of_mem_systems hi))
  | dummy k =>
    obtain ⟨cutoff, delta, name, gradients⟩ := k
    cases gradients with
    | false => rfl
    | true => exact raise_of_mem hi

variable [AtomicSystem σ α] {start : Systems σ} {accounts : Nat → Account α}

theorem Kernel.relies_environments {k : Kernel α} (kept : Keep k.cutoff start accounts) :
    Relies (Ends k.cutoff start) (k.environmentCalls start.size)
      (Reached k.cutoff start fun _ => 0) k.strategy.environments
      (· = k.environmentTable accounts start.size)
      (Reached k.cutoff start (k.countsFound start.size)) := by
  cases k with
  | sortedDistances k => exact relies_environments_atomSpecies kept fun _ _ => rfl
  | dummy k => exact relies_environments_atoms kept fun _ _ => rfl

variable [Scalar α]

/-- The values of an environment. -/
def Kernel.valuesOf (accounts : Nat → Account α) (features : Labels) :
    Kernel α → List Int → List α
  | sortedDistances k => k.valuesOf accounts features
  | dummy k => k.valuesOf accounts features

/-- The descriptor with the values and gradients that the accounts of the systems decide. -/
def Kernel.filled (accounts : Nat → Account α) (k : Kernel α) (d : Descriptor α) : Descriptor α :=
  let slopes := (DummyFeature.columns d.features).map DummyFeature.slope
  { d with
    values := d.values.write (d.environments.rows.map (k.valuesOf accounts d.features))
    gradients :=
      match k with
      | sortedDistances _ => d.gradients
      | dummy _ => d.gradients.map fun g =>
        { g with values := g.values.write (List.replicate g.values.rows slopes) } }

theorem Kernel.relies_fillOrFail {k : Kernel α} (workers : Workers)
    (kept : Keep k.cutoff start accounts) {d : Descriptor α}
    (sub : d.environments.rows ⊆ (k.environmentTable accounts start.size).rows)
    (sub' : d.features.rows ⊆ k.featureTable.rows) :
    Relies (Ends k.cutoff start) (k.valueCalls d.environments d.features)
      (Reached k.cutoff start (k.countsPrepared start.size d.environments)) (k.fillOrFail workers d)
      (· = k.filled accounts d) (fun _ => True) := by
  have within := within_of_subset sub
  have now := fun i hi => countsPrepared_eq (k := k) within (i := i) hi
  cases k with
  | sortedDistances k =>
    rw [fillOrFail_sortedDistances]
    refine (relies_map (SortedDistances.relies_values kept sub (fun feature hfeature => ?_) now)
      ?_).weaken (fun _ h => h) (fun _ h => h) fun _ _ => trivial
    · obtain ⟨rank, -, rfl⟩ := List.mem_map.1 (sub' hfeature)
      exact ⟨rank, rfl⟩
    · rintro _ rfl
      rfl
  | dummy k =>
    rw [fillOrFail_dummy]
    refine (relies_map (DummyKernel.relies_allValues kept sub sub' now) ?_).weaken
      (fun _ h => h) (fun _ h => h) fun _ _ => trivial
    rintro _ rfl
    rfl

namespace Calculator

variable {c : Calculator α}

/-- The descriptors that are prepared for a calculation on systems with these accounts. -/
inductive Prepared (c : Calculator α) (accounts : Nat → Account α) (environments features : Labels) :
    Descriptor α → Prop where
  | plain (without : c.kernel.computesGradients = false) :
    Prepared c accounts environments features (.prepared environments features)
  | withGradients {g : Labels} (having : c.kernel.computesGradients = true)
    (moving : c.kernel.strategy.GradientsOf accounts environments (some g)) :
    Prepared c accounts environments features
      { Descriptor.prepared environments features with
        gradients := some ⟨g, Dense.zeros g.count features.count⟩ }

theorem Prepared.tables {environments features : Labels} {d : Descriptor α}
    (h : c.Prepared accounts environments features d) :
    d.environments = environments ∧ d.features = features := by
  cases h with
  | plain | withGradients => exact ⟨rfl, rfl⟩

theorem relies_prepare (kept : Keep c.kernel.cutoff start accounts) {environments : Labels}
    (names : environments.names = (c.kernel.environmentTable accounts start.size).names)
    (sub : environments.rows ⊆ (c.kernel.environmentTable accounts start.size).rows)
    (features : Labels) :
    Relies (Ends c.kernel.cutoff start) (c.kernel.gradientCalls environments)
      (Reached c.kernel.cutoff start (c.kernel.countsFound start.size))
      (c.prepare .new environments features) (c.Prepared accounts environments features)
      (Reached c.kernel.cutoff start (c.kernel.countsPrepared start.size environments)) := by
  obtain ⟨k, parameters⟩ := c
  cases k with
  | sortedDistances k =>
    refine relies_pure ?_
    rw [Descriptor.prepare_eq]
    exact .plain rfl
  | dummy k =>
    obtain ⟨cutoff, delta, name, gradients⟩ := k
    cases gradients with
    | false =>
      refine relies_pure ?_
      rw [Descriptor.prepare_eq]
      exact .plain rfl
    | true =>
      have found := fun e he => (Account.mem_atomTable_iff cutoff).1 (sub he : e ∈ _)
      refine relies_bind_free (relies_gradientsFor_atoms kept names found fun _ _ => rfl) ?_
      rintro _ ⟨g, rfl, gradient_names, moving⟩
      have gradients : (Strategy.atoms cutoff).GradientsOf accounts environments (some g) :=
        ⟨g, rfl, gradient_names, moving⟩
      have start : environments.names.isPrefixOf g.names = true := by
        rw [names, gradient_names, List.isPrefixOf_iff_prefix]
        exact List.prefix_append _ _
      dsimp only
      rw [Descriptor.prepareWithGradients_eq, Descriptor.preparedWithGradients, if_pos start]
      exact relies_pure (.withGradients rfl gradients)

/-- All that a calculation does with its systems. -/
def work (c : Calculator α) (workers : Workers) (samples features : Selection) :
    Traced (Systems σ) Unit := do
  let prepared ← c.ready samples features
  let _ ← c.kernel.fillOrFail workers prepared

/-- A calculation ends as its work does. -/
theorem result_compute_eq (workers : Workers) (samples features : Selection) (systems : Systems σ)
    (d : Descriptor α) :
    ∃ trace, ((c.compute workers ⟨false, samples, features⟩).outcome (systems, d)).1
      = (ending (c.work workers samples features (systems, trace))).1 := by
  refine ⟨#[.enter .compute], ?_⟩
  rw [outcome_compute]
  change (c.courseDirectly workers samples features systems _).stage.result = _
  rw [work, bind_apply]
  rcases c.courseDirectly_cases workers samples features systems #[.enter .compute] with
    ⟨e, w, hready, run⟩ | ⟨d, w, e, left, w', hready, hfill, -, run⟩ |
      ⟨d, w, filled, w', hready, hfill, -, run⟩ <;> rw [run, hready]
  · rfl
  · dsimp only
    rw [bind_apply, hfill]
    rfl
  · dsimp only
    rw [bind_apply, hfill]
    rfl

/-- Selected environments and features are prepared, unless a call fails. -/
theorem relies_ready (kept : Keep c.kernel.cutoff start accounts)
    (valid : c.kernel.validate = .ok ()) {samples selected : Selection}
    {environments features : Labels}
    (hsamples : samples.select "environments" (c.kernel.environmentTable accounts start.size)
      = .ok environments)
    (names : environments.names = (c.kernel.environmentTable accounts start.size).names)
    (sub : environments.rows ⊆ (c.kernel.environmentTable accounts start.size).rows)
    (hfeatures : selected.select "features" c.kernel.featureTable = .ok features) :
    Relies (Ends c.kernel.cutoff start)
      (c.kernel.environmentCalls start.size ∪ c.kernel.gradientCalls environments)
      (Reached c.kernel.cutoff start fun _ => 0) (c.ready samples selected)
      (c.Prepared accounts environments features)
      (Reached c.kernel.cutoff start (c.kernel.countsPrepared start.size environments)) := by
  have wanted : Relies (Ends c.kernel.cutoff start) (c.kernel.environmentCalls start.size)
      (Reached c.kernel.cutoff start fun _ => 0) (c.environments samples) (· = environments)
      (Reached c.kernel.cutoff start (c.kernel.countsFound start.size)) := by
    refine relies_of_ok_bind (Kernel.check_of_validate valid)
      (relies_bind_free (Kernel.relies_environments kept) ?_)
    rintro _ rfl
    exact relies_ofExcept hsamples rfl
  have found : c.selectedFeatures selected = .ok features :=
    except_bind_eq_ok.2 ⟨_, Kernel.features_eq valid, hfeatures⟩
  refine relies_value_bind fun systems => relies_bind wanted ?_
  rintro _ rfl
  exact relies_of_ok_bind found (relies_log_bind (relies_prepare kept names sub features))

/-- They are filled too, unless a call fails. -/
theorem relies_work (workers : Workers) (kept : Keep c.kernel.cutoff start accounts)
    (valid : c.kernel.validate = .ok ()) {samples selected : Selection}
    {environments features : Labels}
    (hsamples : samples.select "environments" (c.kernel.environmentTable accounts start.size)
      = .ok environments)
    (names : environments.names = (c.kernel.environmentTable accounts start.size).names)
    (sub : environments.rows ⊆ (c.kernel.environmentTable accounts start.size).rows)
    (hfeatures : selected.select "features" c.kernel.featureTable = .ok features)
    (sub' : features.rows ⊆ c.kernel.featureTable.rows) :
    Relies (Ends c.kernel.cutoff start) (c.kernel.calls start.size environments features)
      (Reached c.kernel.cutoff start fun _ => 0) (c.work workers samples selected)
      (fun _ => True) (fun _ => True) := by
  refine (relies_bind (relies_ready kept valid hsamples names sub hfeatures) ?_).congr
    (Set.union_assoc ..)
  intro d prepared
  obtain ⟨rfl, rfl⟩ := prepared.tables
  exact relies_map (Kernel.relies_fillOrFail workers kept sub sub') fun _ _ => trivial

omit [Scalar α] in
/-- The calls of a calculation make sense. -/
theorem answered_of_mem_calls {k : Kernel α} {environments features : Labels}
    (answering : Answering k.cutoff start accounts)
    (within : environments.Within accounts start.size) :
    ∀ call ∈ k.calls start.size environments features,
      ∀ e, ¬Ends k.cutoff start call (.error e) := by
  rintro ⟨i, round, q⟩ hcall e
  refine answering _ e ?_
  rintro atom rfl
  -- only sums of coordinates need the pairs of an atom
  have sums : ⟨i, round, .pairsContaining atom⟩
      ∈ DummyKernel.sumCalls (k.valueRound + 1) environments features := by
    cases k with
    | sortedDistances k =>
      simp [Kernel.calls, Kernel.environmentCalls, Kernel.gradientCalls, Kernel.valueCalls,
        Kernel.computesGradients, visit] at hcall
    | dummy k =>
      obtain ⟨cutoff, delta, name, gradients⟩ := k
      cases gradients <;>
        simpa [Kernel.calls, Kernel.environmentCalls, Kernel.gradientCalls, Kernel.valueCalls,
          Kernel.computesGradients, visit] using hcall
  obtain ⟨-, environment, henvironment, -, center, first, second, asked⟩ := sums
  obtain ⟨j, -, center', hcenter', first', second'⟩ := within environment henvironment
  cases Int.natCast_inj.1 (Option.some.inj (first.symm.trans first'))
  cases Int.natCast_inj.1 (Option.some.inj (second.symm.trans second'))
  rcases asked with asked | asked
  · cases asked
  · cases asked
    exact hcenter'

omit [Scalar α] in
/-- All environments are found where all calls are answered. -/
theorem ensures_environments {k : Kernel α} (kept : Keep k.cutoff start accounts)
    (answering : Answering k.cutoff start accounts) : Ensures k.strategy.environments start
      fun r _ => r = .ok (k.environmentTable accounts start.size) := by
  have plain : ∀ i round atom,
      ⟨i, round, .pairsContaining atom⟩ ∉ k.environmentCalls start.size := by
    cases k <;> simp [Kernel.environmentCalls, visit]
  refine ensures_mono ((Kernel.relies_environments kept).ensures_ok reached_start
    (answering.of_plain plain)) ?_
  rintro _ w ⟨_, rfl, rfl, -⟩
  rfl

/-- Selections that are not valid are found out, where all environments are found. -/
theorem ensures_ready_of_not_valid (kept : Keep c.kernel.cutoff start accounts)
    (valid : c.kernel.validate = .ok ()) {p : Error → Prop} (parameter : ∀ cause, p (.parameter cause))
    (failure : Ensures c.kernel.strategy.environments start fun r _ => ∀ e, r = .error e → p e)
    {samples selected : Selection}
    (h : ¬(samples.Valid (c.kernel.environmentTable accounts start.size) ∧
      selected.Valid c.kernel.featureTable)) :
    Ensures (c.ready samples selected) start fun r _ => ∃ e, r = .error e ∧ p e := by
  have all : Ensures c.kernel.strategy.environments start fun r _ =>
      r = .ok (c.kernel.environmentTable accounts start.size) ∨ ∃ e, r = .error e ∧ p e := by
    have found := Kernel.relies_environments kept start reached_start
    refine ensures_mono (failure.and found) ?_
    rintro r w ⟨refused, rests, -⟩
    cases rests with
    | answer right _ => exact .inl (congrArg Except.ok right)
    | failure _ _ => exact .inr ⟨_, rfl, refused _ rfl⟩
  refine ensures_value_bind (ensures_bind (ensures_of_ok_bind
    (Kernel.check_of_validate valid) (ensures_bind (ensures_mono all ?_))))
  rintro _ w (rfl | ⟨e, rfl, refused⟩)
  · dsimp only [andThen]
    refine ensures_ofExcept ?_
    by_cases hsamples : samples.Valid (c.kernel.environmentTable accounts start.size)
    · obtain ⟨environments, henvironments, -⟩ := Selection.select_of_valid hsamples "environments"
      obtain ⟨cause, refused⟩ :=
        Selection.select_of_not_valid (fun hselected => h ⟨hsamples, hselected⟩) "features"
      have failed : c.selectedFeatures selected = .error (.parameter cause) :=
        except_bind_eq_error.2 (.inr ⟨_, Kernel.features_eq valid, refused⟩)
      rw [henvironments]
      dsimp only [andThen]
      rw [failed]
      exact fun trace => ⟨_, rfl, parameter cause⟩
    · obtain ⟨cause, refused⟩ := Selection.select_of_not_valid hsamples "environments"
      rw [refused]
      exact ⟨_, rfl, parameter cause⟩
  · exact ⟨e, rfl, refused⟩

/-- Selections that are not valid are bad parameters, where all calls are answered. -/
theorem ensures_work_of_not_valid (workers : Workers) (kept : Keep c.kernel.cutoff start accounts)
    (valid : c.kernel.validate = .ok ()) (answering : Answering c.kernel.cutoff start accounts)
    {samples selected : Selection}
    (h : ¬(samples.Valid (c.kernel.environmentTable accounts start.size) ∧
      selected.Valid c.kernel.featureTable)) :
    Ensures (c.work workers samples selected) start
      fun r _ => ∃ cause, r = .error (.parameter cause) := by
  refine ensures_bind (ensures_mono (ensures_ready_of_not_valid
    (p := fun e => ∃ cause, e = .parameter cause) kept valid (fun cause => ⟨cause, rfl⟩) ?_ h) ?_)
  · refine ensures_mono (ensures_environments kept answering) ?_
    rintro _ w rfl _ ⟨⟩
  · rintro _ w ⟨_, rfl, cause, rfl⟩
    exact ⟨cause, rfl⟩

/-! ### Whole calculations -/

theorem validate_of_create {locate : Json.Locator} {name parameters : String} {c : Calculator Float}
    (h : create locate name parameters = .ok c) : c.kernel.validate = .ok () := by
  obtain ⟨k, -, h⟩ := except_bind_eq_ok.1 h
  obtain ⟨_, valid, h⟩ := except_bind_eq_ok.1 h
  cases h
  exact valid

variable {d : Descriptor α}

/-- With valid selections, a calculation rests on its calls. -/
theorem exists_rests (workers : Workers) (kept : Keep c.kernel.cutoff start accounts)
    (valid : c.kernel.validate = .ok ()) {samples selected : Selection}
    (hsamples : samples.Valid (c.kernel.environmentTable accounts start.size))
    (hselected : selected.Valid c.kernel.featureTable) :
    ∃ environments features,
      samples.select "environments" (c.kernel.environmentTable accounts start.size)
        = .ok environments ∧
      selected.select "features" c.kernel.featureTable = .ok features ∧
      environments.Within accounts start.size ∧
      Rests (Ends c.kernel.cutoff start) (c.kernel.calls start.size environments features)
        (fun _ => True) ((c.compute workers ⟨false, samples, selected⟩).outcome (start, d)).1 := by
  obtain ⟨environments, henvironments, names, sub⟩ :=
    Selection.select_of_valid hsamples "environments"
  obtain ⟨features, hfeatures, -, sub'⟩ := Selection.select_of_valid hselected "features"
  obtain ⟨trace, same⟩ := c.result_compute_eq workers samples selected start d
  refine ⟨environments, features, henvironments, hfeatures, Kernel.within_of_subset sub, ?_⟩
  rw [same]
  exact (relies_work workers kept valid henvironments names sub hfeatures sub' start reached_start
    trace).1

/-- Where all calls are answered, exactly the selections that are not valid are refused. -/
theorem fails_iff_of_answering (workers : Workers) (kept : Keep c.kernel.cutoff start accounts)
    (valid : c.kernel.validate = .ok ()) (answering : Answering c.kernel.cutoff start accounts)
    (samples selected : Selection) :
    let result := ((c.compute workers ⟨false, samples, selected⟩).outcome (start, d)).1
    ((∃ e, result = .error e) ↔ ¬(samples.Valid (c.kernel.environmentTable accounts start.size) ∧
      selected.Valid c.kernel.featureTable)) ∧
      ∀ e, result = .error e → ∃ cause, e = .parameter cause := by
  by_cases h : samples.Valid (c.kernel.environmentTable accounts start.size) ∧
      selected.Valid c.kernel.featureTable
  · obtain ⟨environments, features, -, -, within, rests⟩ :=
      c.exists_rests (d := d) workers kept valid h.1 h.2
    obtain ⟨_, answer, -⟩ := rests.exists_ok (answered_of_mem_calls answering within)
    simp [answer, h]
  · obtain ⟨trace, same⟩ := c.result_compute_eq workers samples selected start d
    obtain ⟨cause, refused⟩ := ensures_work_of_not_valid workers kept valid answering h trace
    simp [same, refused, h]

/-- A calculator that was created fails on systems that keep their contract for two reasons only.
Where all calls are answered, these are the selections that are not valid; with valid selections,
it hands on the error of one of its calls, and ends well only if all of them were answered. -/
theorem compute_failures [AtomicSystem σ Float] {locate : Json.Locator} {name parameters : String}
    {c : Calculator Float} (created : create locate name parameters = .ok c) (workers : Workers)
    (samples features : Selection)
    {systems : Systems σ} {accounts : Nat → Account Float}
    (kept : Keep c.kernel.cutoff systems accounts) (d : Descriptor Float) :
    let environments := c.kernel.environmentTable accounts systems.size
    let result := ((c.compute workers ⟨false, samples, features⟩).outcome (systems, d)).1
    (Answering c.kernel.cutoff systems accounts →
      (c.kernel.strategy.environments.outcome systems).1 = .ok environments ∧
      c.kernel.features = .ok c.kernel.featureTable ∧
      ((∃ e, result = .error e) ↔
        ¬(samples.Valid environments ∧ features.Valid c.kernel.featureTable)) ∧
      ∀ e, result = .error e → ∃ cause, e = .parameter cause) ∧
    (samples.Valid environments → features.Valid c.kernel.featureTable →
      ∃ environments' features', samples.select "environments" environments = .ok environments' ∧
        features.select "features" c.kernel.featureTable = .ok features' ∧
        Rests (Ends c.kernel.cutoff systems)
          (c.kernel.calls systems.size environments' features') (fun _ => True) result) := by
  intro environments result
  have valid := validate_of_create created
  refine ⟨fun answering => ⟨?_, Kernel.features_eq valid, ?_⟩, fun hsamples hfeatures => ?_⟩
  · exact (ensures_environments kept answering).outcome
  · exact fails_iff_of_answering workers kept valid answering samples features
  · obtain ⟨environments', features', henvironments, hfeatures, -, rests⟩ :=
      c.exists_rests (d := d) workers kept valid hsamples hfeatures
    exact ⟨environments', features', henvironments, hfeatures, rests⟩

/-- Two atoms that are neighbors of each other, in a system that refuses some requests. -/
def dimer (refused : List Request) : RecordedSystem Float where
  size := 2
  species := #[1, 8]
  positions := #[⟨0, 0, 0⟩, ⟨0, 0, 1⟩]
  cell := .infinite
  pairs := [⟨0, 1, ⟨0, 0, 1⟩⟩]
  pairsContaining := .replicate 2 [⟨0, 1, ⟨0, 0, 1⟩⟩]
  refused := refused
  cutoffs := #[]

theorem sound_dimer (refused : List Request) : (dimer refused).Sound where
  size_le := (by decide : 2 ≤ maxLabel)
  size_species := rfl
  size_positions := rfl
  size_pairsContaining := rfl
  species_le := by simp [dimer, maxLabel]
  pairs_lt := by simp [dimer]
  pairsContaining_lt := by simp [dimer]

/-- The sorted distances in a dimer are found, unless it refuses to tell its pairs. -/
theorem compute_dimer_failures : ∃ c,
    create .unknown "sorted_distances" "[1,2]" = .ok c ∧
    ((c.compute .inOrder ⟨false, .all, .all⟩).outcome (#[dimer []], .new)).1 = .ok () ∧
    ∃ e, ((c.compute .inOrder ⟨false, .all, .all⟩).outcome (#[dimer [.pairs]], .new)).1
      = .error e := by
  have parsed : (create .unknown "sorted_distances" "[1,2]").toOption.any
      (fun c => c.kernel matches .sortedDistances _) = true := by decide +kernel
  cases created : create .unknown "sorted_distances" "[1,2]" with
  | error e =>
    rw [created] at parsed
    cases parsed
  | ok c =>
  rw [created] at parsed
  change (c.kernel matches .sortedDistances _) = true at parsed
  refine ⟨c, rfl, ?_⟩
  have failures (refused : List Request) := compute_failures created .inOrder .all .all
    (keep_recorded (sound_dimer refused) c.kernel.cutoff) .new
  constructor
  · obtain ⟨-, -, fails, -⟩ := (failures []).1 (answering_recorded (sound_dimer []) rfl _)
    cases result : ((c.compute .inOrder ⟨false, .all, .all⟩).outcome (#[dimer []], .new)).1 with
    | ok _ => rfl
    | error e => exact absurd ⟨trivial, trivial⟩ (fails.1 ⟨e, result⟩)
  · obtain ⟨environments, features, -, -, rests⟩ := (failures [.pairs]).2 trivial trivial
    have made : ⟨0, 1, .pairs⟩ ∈ c.kernel.calls 1 environments features := by
      cases h : c.kernel with
      | sortedDistances k => simp [Kernel.calls, Kernel.environmentCalls, visit]
      | dummy k =>
        rw [h] at parsed
        cases parsed
    generalize ((c.compute .inOrder ⟨false, .all, .all⟩).outcome (#[dimer [.pairs]], .new)).1 = result
      at rests
    cases rests with
    | failure _ _ => exact ⟨_, rfl⟩
    | answer _ answered =>
      obtain ⟨s, hs, ends⟩ := answered _ made
      cases Array.mem_singleton.1 (Array.mem_of_getElem? hs)
      have replied := RecordedSystem.eq_reply_of_ends (sound_dimer [.pairs])
        (fun _ asked => by cases asked) ends
      cases replied

end Calculator

end Atomistic
