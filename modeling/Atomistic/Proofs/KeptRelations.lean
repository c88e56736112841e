import Atomistic.Proofs.CachedNeighbors
import Atomistic.Proofs.CalculationCourse

/-!
# What calculations keep

A calculation asks its systems some questions and puts the answers together; of the systems it knows
nothing else. A relation between computations over two kinds of systems that holds of these
questions, and that is kept when computations are put together, therefore holds of calculations.
This is shown here once for all such relations: that systems answer alike is one of them, that
something about them does not change is another one. What does not ask for pairs has its own part, as
some relations hold of all other questions.
-/

namespace Atomistic

open Traced

variable {σ τ α : Type} [AtomicSystem σ α] [AtomicSystem τ α]

/-! ### Rows in order -/

namespace Strategy

/-- The rows of all systems, in order. -/
def sortedOfAll (rows : Nat → Traced (Systems σ) (List (List Int))) :
    Traced (Systems σ) (List (List Int)) := do
  return sortedRows (← rowsOfAll rows)

/-- The rows of the systems that some environments belong to, in order. -/
def sortedBySystem (environments : Labels) (rows : Int → Traced (Systems σ) (List (List Int))) :
    Traced (Systems σ) (List (List Int)) := do
  let systems ← Traced.ofExcept (requestedSystems environments)
  return sortedRows (← systems.mapM rows).flatten

end Strategy

/-! ### Relations -/

/-- A relation between computations over systems of two kinds that is kept when computations are put
together, and that holds of the questions of calculations that are not about pairs. -/
structure KeptBesidesPairs (R : ∀ β : Type, Traced (Systems σ) β → Traced (Systems τ) β → Prop) :
    Prop where
  ofExcept : ∀ {β : Type} (x : Except Error β), R β (Traced.ofExcept x) (Traced.ofExcept x)
  bind : ∀ {β γ : Type} {m : Traced (Systems σ) β} {n : Traced (Systems τ) β}
    {f : β → Traced (Systems σ) γ} {g : β → Traced (Systems τ) γ},
    R β m n → (∀ b, R γ (f b) (g b)) → R γ (m >>= f) (n >>= g)
  /-- What is only told to listeners may differ. -/
  value_bind : ∀ {γ : Type} {f : Systems σ → Traced (Systems σ) γ}
    {g : Systems τ → Traced (Systems τ) γ},
    (∀ v w, R γ (f v) (g w)) → R γ (Traced.value >>= f) (Traced.value >>= g)
  log : ∀ (level : Level) (origin : Origin) (text text' : String),
    R Unit (Traced.log level origin text) (Traced.log level origin text')
  within : ∀ {β : Type} (span : Span) {m : Traced (Systems σ) β} {n : Traced (Systems τ) β},
    R β m n → R β (Traced.within span m) (Traced.within span n)
  numbers : R (List Nat) Systems.numbers Systems.numbers
  size : ∀ i, R Nat (Systems.ask i AtomicSystem.size) (Systems.ask i AtomicSystem.size)
  species : ∀ i, R (Array Int) (Systems.ask i AtomicSystem.species)
    (Systems.ask i AtomicSystem.species)
  computeNeighbors : ∀ (cutoff : α) i, R Unit (Systems.computeNeighbors cutoff i)
    (Systems.computeNeighbors cutoff i)

variable {R : ∀ β : Type, Traced (Systems σ) β → Traced (Systems τ) β → Prop}

namespace KeptBesidesPairs

variable (h : KeptBesidesPairs R)
include h

/-! ### Computations -/

theorem answer {β : Type} (b : β) : R β (pure b) (pure b) := h.ofExcept (.ok b)

theorem mapM {ι β : Type} {f : ι → Traced (Systems σ) β} {g : ι → Traced (Systems τ) β}
    (each : ∀ i, R β (f i) (g i)) :
    ∀ items : List ι, R (List β) (items.mapM f) (items.mapM g)
  | [] => h.answer []
  | i :: items => by
    rw [List.mapM_cons, List.mapM_cons]
    exact h.bind (each i) fun b => h.bind (mapM each items) fun bs => h.answer (b :: bs)

theorem forM {ι : Type} {f : ι → Traced (Systems σ) Unit} {g : ι → Traced (Systems τ) Unit}
    (each : ∀ i, R Unit (f i) (g i)) : ∀ items : List ι, R Unit (items.forM f) (items.forM g)
  | [] => h.answer ()
  | i :: items => by
    rw [List.forM_eq_forM, List.forM_eq_forM, List.forM_cons, List.forM_cons]
    exact h.bind (each i) fun _ => forM each items

/-! ### Environments -/

theorem atomRows (i : Nat) : R _ (Strategy.atomRows i) (Strategy.atomRows i) :=
  h.bind (h.size i) fun _ => h.answer _

theorem speciesRows (i : Nat) : R _ (Strategy.speciesRows i) (Strategy.speciesRows i) :=
  h.bind (h.species i) fun _ => h.answer _

theorem rowsOfAll {rows : Nat → Traced (Systems σ) (List (List Int))}
    {rows' : Nat → Traced (Systems τ) (List (List Int))} (each : ∀ i, R _ (rows i) (rows' i)) :
    R _ (Strategy.rowsOfAll rows) (Strategy.rowsOfAll rows') := by
  refine h.bind h.numbers fun numbers => ?_
  exact h.bind (h.mapM each numbers) fun _ => h.answer _

theorem structureGradients (row : List Int) :
    R _ (Strategy.structureGradients row) (Strategy.structureGradients row) := by
  refine h.bind (h.ofExcept _) fun i => ?_
  exact h.bind (h.size i) fun _ => h.answer _

theorem structureSpeciesGradients (row : List Int) :
    R _ (Strategy.structureSpeciesGradients row)
      (Strategy.structureSpeciesGradients row) := by
  refine h.bind (h.ofExcept _) fun i => ?_
  refine h.bind (h.species i) fun species => ?_
  exact h.bind (h.ofExcept _) fun _ => h.answer _

/-- Tables of environments are built from answers that are not about pairs, except where these are
told apart by the species around atoms. -/
theorem environments (s : Strategy α)
    (species : ∀ cutoff includesSelf,
      R _ (Strategy.sortedOfAll (Strategy.atomSpeciesRows cutoff includesSelf))
        (Strategy.sortedOfAll (Strategy.atomSpeciesRows cutoff includesSelf))) :
    R _ (s.environments : Traced (Systems σ) _) (s.environments : Traced (Systems τ) _) := by
  cases s with
  | structures => exact h.bind h.numbers fun _ => h.ofExcept _
  | atoms cutoff => exact h.bind (h.rowsOfAll h.atomRows) fun _ => h.ofExcept _
  | structureSpecies => exact h.bind (h.rowsOfAll h.speciesRows) fun _ => h.ofExcept _
  | atomSpecies cutoff includesSelf =>
    have table := h.bind (species cutoff includesSelf) fun rows => h.ofExcept do
      Labels.ofRows (Strategy.atomSpecies cutoff includesSelf).names (← rows.mapM checkRow)
    simp only [Strategy.sortedOfAll, bind_assoc, pure_bind] at table
    exact table
  | given names rows => exact h.ofExcept _

/-- So are tables of gradients, except for those of atoms. -/
theorem gradientsFor (s : Strategy α) (environments : Labels)
    (atoms : ∀ cutoff : α,
      R _ (Strategy.sortedBySystem environments (Strategy.atomGradients cutoff environments))
        (Strategy.sortedBySystem environments (Strategy.atomGradients cutoff environments)))
    (species : ∀ cutoff : α,
      R _ (Strategy.sortedBySystem environments (Strategy.atomSpeciesGradients cutoff environments))
        (Strategy.sortedBySystem environments
          (Strategy.atomSpeciesGradients cutoff environments))) :
    R _ (s.gradientsFor environments : Traced (Systems σ) _)
      (s.gradientsFor environments : Traced (Systems τ) _) := by
  cases s with
  | structures => exact h.bind (h.mapM h.structureGradients _) fun _ => h.ofExcept _
  | atoms cutoff => exact h.bind (atoms cutoff) fun _ => h.ofExcept _
  | structureSpecies =>
    exact h.bind (h.mapM h.structureSpeciesGradients _) fun _ => h.ofExcept _
  | atomSpecies cutoff includesSelf => exact h.bind (species cutoff) fun _ => h.ofExcept _
  | given names rows => exact h.answer none

/-! ### Descriptors -/

variable [Scalar α]

/-- A descriptor is prepared from tables of environments and of gradients; the rest of this asks no
questions. -/
theorem ready (c : Calculator α)
    (environments : R _ (c.kernel.strategy.environments : Traced (Systems σ) _)
      (c.kernel.strategy.environments : Traced (Systems τ) _))
    (gradientsFor : ∀ selected, R _ (c.kernel.strategy.gradientsFor selected : Traced (Systems σ) _)
      (c.kernel.strategy.gradientsFor selected : Traced (Systems τ) _))
    (samples features : Selection) :
    R _ (c.ready samples features : Traced (Systems σ) _)
      (c.ready samples features : Traced (Systems τ) _) := by
  refine h.value_bind fun xs ys => h.bind ?_ fun selected => ?_
  · refine h.bind (h.ofExcept _) fun _ => ?_
    exact h.bind environments fun _ => h.ofExcept _
  refine h.bind (h.ofExcept _) fun features => h.bind (h.log ..) fun _ => ?_
  unfold Calculator.prepare
  split
  · exact h.answer _
  · refine h.bind (gradientsFor selected) fun found => ?_
    cases found with
    | none => exact h.ofExcept (.error _)
    | some gradients => exact h.ofExcept _

end KeptBesidesPairs

/-- The relation holds of all questions of calculations. -/
structure Kept (R : ∀ β : Type, Traced (Systems σ) β → Traced (Systems τ) β → Prop) : Prop
    extends KeptBesidesPairs R where
  pairs : ∀ i, R (List (Pair α)) (Systems.ask i AtomicSystem.pairs)
    (Systems.ask i AtomicSystem.pairs)

namespace Kept

variable (h : Kept R)
include h

/-! ### Pairs -/

theorem atomSpeciesRows (cutoff : α) (includesSelf : Bool) (i : Nat) :
    R _ (Strategy.atomSpeciesRows cutoff includesSelf i)
      (Strategy.atomSpeciesRows cutoff includesSelf i) := by
  refine h.bind (h.computeNeighbors cutoff i) fun _ => ?_
  refine h.bind (h.species i) fun species => ?_
  refine h.bind (h.pairs i) fun pairs => ?_
  exact h.bind (h.ofExcept _) fun _ => h.answer _

theorem environments (s : Strategy α) :
    R _ (s.environments : Traced (Systems σ) _) (s.environments : Traced (Systems τ) _) :=
  h.toKeptBesidesPairs.environments s fun cutoff includesSelf =>
    h.bind (h.rowsOfAll (h.atomSpeciesRows cutoff includesSelf)) fun _ => h.answer _

theorem atomGradients (cutoff : α) (environments : Labels) (system : Int) :
    R _ (Strategy.atomGradients cutoff environments system)
      (Strategy.atomGradients cutoff environments system) := by
  refine h.bind (h.ofExcept _) fun i => ?_
  refine h.bind (h.computeNeighbors cutoff i) fun _ => ?_
  refine h.bind (h.ofExcept _) fun centers => ?_
  exact h.bind (h.pairs i) fun _ => h.answer _

theorem atomSpeciesGradients (cutoff : α) (environments : Labels) (system : Int) :
    R _ (Strategy.atomSpeciesGradients cutoff environments system)
      (Strategy.atomSpeciesGradients cutoff environments system) := by
  refine h.bind (h.ofExcept _) fun i => ?_
  refine h.bind (h.computeNeighbors cutoff i) fun _ => ?_
  refine h.bind (h.species i) fun species => ?_
  refine h.bind (h.ofExcept _) fun centers => ?_
  refine h.bind (h.pairs i) fun pairs => ?_
  exact h.bind (h.ofExcept _) fun _ => h.answer _

theorem sortedBySystem (environments : Labels) {rows : Int → Traced (Systems σ) (List (List Int))}
    {rows' : Int → Traced (Systems τ) (List (List Int))} (each : ∀ i, R _ (rows i) (rows' i)) :
    R _ (Strategy.sortedBySystem environments rows) (Strategy.sortedBySystem environments rows') :=
  h.bind (h.ofExcept _) fun systems => h.bind (h.mapM each systems) fun _ => h.answer _

theorem gradientsFor (s : Strategy α) (environments : Labels) :
    R _ (s.gradientsFor environments : Traced (Systems σ) _)
      (s.gradientsFor environments : Traced (Systems τ) _) :=
  h.toKeptBesidesPairs.gradientsFor s environments
    (fun cutoff => h.sortedBySystem environments (h.atomGradients cutoff environments))
    fun cutoff => h.sortedBySystem environments (h.atomSpeciesGradients cutoff environments)

/-! ### Kernels -/

theorem survey (k : DummyKernel α) (environments features : Labels) :
    R _ (k.survey environments features : Traced (Systems σ) _)
      (k.survey environments features : Traced (Systems τ) _) := by
  have main : R _ (do
      let features ← Traced.ofExcept (features.rows.mapM DummyFeature.ofRow)
      let systems ← Traced.ofExcept (requestedSystems environments)
      let systems ← Traced.ofExcept (systems.mapM positionOfLabel)
      systems.forM (Systems.computeNeighbors k.cutoff)
      return features) (do
      let features ← Traced.ofExcept (features.rows.mapM DummyFeature.ofRow)
      let systems ← Traced.ofExcept (requestedSystems environments)
      let systems ← Traced.ofExcept (systems.mapM positionOfLabel)
      systems.forM (Systems.computeNeighbors k.cutoff)
      return features) := by
    refine h.bind (h.ofExcept _) fun features => ?_
    refine h.bind (h.ofExcept _) fun requested => ?_
    refine h.bind (h.ofExcept _) fun systems => ?_
    exact h.bind (h.forM (h.computeNeighbors k.cutoff) systems) fun _ => h.answer _
  unfold DummyKernel.survey
  cases k.announcement? with
  | none => exact main
  | some level => exact h.bind (h.log ..) fun _ => main

variable [Scalar α]

theorem shells (k : SortedDistances α) (i : Nat) :
    R _ (k.shells i : Traced (Systems σ) _) (k.shells i : Traced (Systems τ) _) := by
  refine h.bind (h.computeNeighbors k.cutoff i) fun _ => ?_
  refine h.bind (h.species i) fun species => ?_
  refine h.bind (h.pairs i) fun pairs => ?_
  exact h.bind (h.ofExcept _) fun _ => h.answer _

theorem sortedDistances (k : SortedDistances α) (environments features : Labels) :
    R _ (k.values environments features : Traced (Systems σ) _)
      (k.values environments features : Traced (Systems τ) _) := by
  refine h.within _ (h.bind (h.ofExcept _) fun requested => ?_)
  refine h.bind (h.ofExcept _) fun systems => ?_
  refine h.bind (h.mapM (fun i => ?_) systems) fun _ => h.ofExcept _
  exact h.bind (h.shells k i) fun _ => h.answer _

/-- Positions and the pairs of an atom are only asked for together, by the workers that compute the
rows of sums. -/
theorem fill (k : Kernel α) (workers : Workers) (d : Descriptor α)
    (rows : ∀ (k : DummyKernel α) (features : List DummyFeature),
      R _ (do
        let systems ← Traced.value
        return (features, workers.share (d.environments.rows.map (k.row systems features))))
      (do
        let systems ← Traced.value
        return (features, workers.share (d.environments.rows.map (k.row systems features))))) :
    R _ (k.fill workers d : Traced (Systems σ) _) (k.fill workers d : Traced (Systems τ) _) := by
  cases k with
  | sortedDistances k => exact h.bind (h.sortedDistances k _ _) fun _ => h.answer _
  | dummy k =>
    refine h.bind (h.within _ (h.bind (h.survey k _ _) (rows k))) fun found => ?_
    dsimp only
    split <;> exact h.answer _

/-! ### Descriptors -/

theorem ready (c : Calculator α) (samples features : Selection) :
    R _ (c.ready samples features : Traced (Systems σ) _)
      (c.ready samples features : Traced (Systems τ) _) :=
  h.toKeptBesidesPairs.ready c (h.environments _) (h.gradientsFor _) samples features

end Kept

/-! ### What does not change -/

section Systems

variable (kept : Systems σ → Prop)
  (neighbors : ∀ (cutoff : α) (i : Nat) (v : Systems σ), kept v →
    Ensures (Systems.computeNeighbors cutoff i) v fun _ w => kept w)

include neighbors

/-- Only having neighbors computed changes systems. What this keeps of them is kept in calculations,
also in those that fail. -/
theorem kept_systems :
    Kept fun _ (m _ : Traced (Systems σ) _) => ∀ v, kept v → Ensures m v fun _ w => kept w where
  ofExcept _ _ hv := ensures_ofExcept hv
  bind hm hf v hv := ensures_bind (ensures_mono (hm v hv) fun r w hw => by
    cases r with
    | ok b => exact hf b w hw
    | error e => exact hw)
  value_bind rest v hv := ensures_value_bind (rest v v v hv)
  log _ _ _ _ _ hv _ := hv
  within _ _ _ hm v hv := ensures_within (hm v hv)
  numbers _ hv := ensures_value_bind (ensures_pure hv)
  size _ _ hv := Systems.ensures_systemsAsk hv
  species _ _ hv := Systems.ensures_systemsAsk hv
  pairs _ _ hv := Systems.ensures_systemsAsk hv
  computeNeighbors := neighbors

variable [Scalar α]

theorem Calculator.kept_courseDirectly (c : Calculator α) (workers : Workers)
    (samples features : Selection) {systems : Systems σ} (before : kept systems) (trace : Trace) :
    kept (c.courseDirectly workers samples features systems trace).systems := by
  have whole := kept_systems kept neighbors
  have readied := whole.ready c samples features systems before trace
  -- sharing rows asks the systems, and changes none of them
  have filling (d : Descriptor α) :
      ∀ v, kept v → Ensures (c.kernel.fillOrFail workers d) v fun _ w => kept w := by
    intro v hv
    have filled := whole.fill c.kernel workers d
      (fun _ _ _ hv => ensures_value_bind (ensures_pure hv)) v hv
    refine ensures_bind (ensures_mono filled fun answer w hw => ?_)
    cases answer with
    | error e => exact hw
    | ok left =>
      change Ensures (Traced.ofExcept left.2 >>= fun _ => pure left.1) w fun _ w => kept w
      exact ensures_ofExcept_bind (fun _ _ => ensures_pure hw) fun _ _ => hw
  rcases c.courseDirectly_cases workers samples features systems trace with ⟨e, w, hready, run⟩ |
    ⟨d, w, e, left, w', hready, hfill, -, run⟩ | ⟨d, w, filled, w', hready, hfill, -, run⟩ <;>
    rw [run] <;> rw [hready] at readied
  · exact readied
  · have after := filling d w.1 readied w.2
    rwa [hfill] at after
  · have after := filling d w.1 readied w.2
    rwa [hfill] at after

/-- A calculation keeps it, also if it works with copies of the systems. -/
theorem Calculator.ensures_compute_systems (c : Calculator α) (workers : Workers)
    (options : CalculationOptions) {w : Workspace σ α} (before : kept w.1) :
    Ensures (c.compute workers options) w fun _ w' => kept w'.1 := by
  obtain ⟨systems, d⟩ := w
  refine ensures_within ?_
  split
  · refine ensures_bind (ensures_ask ?_)
    dsimp only
    cases (systems.mapM SimpleSystem.copyOf : Except Error (Systems (SimpleSystem α))) with
    | error e => exact before
    | ok copies =>
      dsimp only [andThen, withSystems]
      exact ensures_focus fun _ => before
  · intro trace
    have after := c.kept_courseDirectly kept neighbors workers options.samples options.features
      before trace
    rw [computeDirectly_apply, Course.ending]
    cases (c.courseDirectly workers options.samples options.features systems trace).stage.result <;>
      exact after

end Systems

end Atomistic
