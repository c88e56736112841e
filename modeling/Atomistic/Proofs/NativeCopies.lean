import Atomistic.Proofs.SettledCalculation
import Atomistic.Proofs.SystemHistories

/-!
# Calculations on copies

A calculation may be asked to work on copies of its systems, which start without neighbor lists. The
systems themselves may keep lists for all kinds of cutoffs. Both calculations end the same: before
it reads pairs, a kernel asks each system for the neighbors within its own cutoff, and a list that
is used again for this cutoff is the one that the copy computes.
-/

namespace Atomistic

open Traced Systems

/-! ### What a calculation looks at -/

section

variable {α : Type} [Scalar α]

/-- Systems that have as many atoms as other ones, and the same neighbors within a cutoff. -/
structure Systems.SameAround (cutoff : α) (start start' : Systems (SimpleSystem α)) : Prop where
  count : start.size = start'.size
  size : ∀ i, (elementAt start i >>= AtomicSystem.size : Except Error Nat)
    = (elementAt start' i >>= AtomicSystem.size)
  around : ∀ i, around cutoff start i = around cutoff start' i

variable {start start' : Systems (SimpleSystem α)} {cutoff : α}

namespace Systems.SameAround

theorem atomRows (same : SameAround cutoff start start') :
    Strategy.atomRowsAround start = Strategy.atomRowsAround start' := by
  funext i
  rw [Strategy.atomRowsAround, same.size i]
  rfl

theorem atomSpeciesRows (same : SameAround cutoff start start') (includesSelf : Bool) :
    Strategy.atomSpeciesRowsAround cutoff includesSelf start
      = Strategy.atomSpeciesRowsAround cutoff includesSelf start' := by
  funext i
  rw [Strategy.atomSpeciesRowsAround, same.around i]
  rfl

theorem atomGradients (same : SameAround cutoff start start') (environments : Labels) :
    Strategy.atomGradientsAround cutoff start environments
      = Strategy.atomGradientsAround cutoff start' environments := by
  funext system
  simp only [Strategy.atomGradientsAround, same.around]

theorem shells {k : SortedDistances α} (same : SameAround k.cutoff start start') :
    k.shellsAround start = k.shellsAround start' := by
  funext i
  rw [SortedDistances.shellsAround, same.around i]
  rfl

theorem dummyRow {k : DummyKernel α} (same : SameAround k.cutoff start start')
    (features : List DummyFeature) : k.rowAround start features = k.rowAround start' features := by
  funext environment
  simp only [DummyKernel.rowAround, same.around]

theorem environments {k : Kernel α} (same : SameAround k.cutoff start start') :
    k.environmentsAround start = k.environmentsAround start' := by
  cases k with
  | sortedDistances l =>
    have within : SameAround l.cutoff start start' := same
    rw [Kernel.environmentsAround, Strategy.rowsOfAllAround, same.count,
      within.atomSpeciesRows false]
    rfl
  | dummy l =>
    rw [Kernel.environmentsAround, Strategy.rowsOfAllAround, same.count, same.atomRows]
    rfl

theorem prepared {k : Kernel α} (same : SameAround k.cutoff start start')
    (environments features : Labels) :
    k.preparedAround start environments features
      = k.preparedAround start' environments features := by
  cases k with
  | sortedDistances l => rfl
  | dummy l =>
    have within : SameAround l.cutoff start start' := same
    have each := within.atomGradients environments
    simp only [Kernel.preparedAround, Strategy.gradientTableAround, Strategy.gradientRowsAround,
      each]

theorem filled {k : Kernel α} (same : SameAround k.cutoff start start') (workers : Workers)
    (d : Descriptor α) : k.filledAround workers start d = k.filledAround workers start' d := by
  cases k with
  | sortedDistances l =>
    have within : SameAround l.cutoff start start' := same
    have each := within.shells
    simp only [Kernel.filledAround, SortedDistances.valuesAround, each]
  | dummy l =>
    have within : SameAround l.cutoff start start' := same
    have each := within.dummyRow
    simp only [Kernel.filledAround, DummyKernel.valuesAround, each, within.around]

end Systems.SameAround

/-- A calculation gives the same for them. -/
theorem Calculator.givesAround_congr {c : Calculator α}
    (same : SameAround c.kernel.cutoff start start') (workers : Workers)
    (samples features : Selection) :
    c.givesAround workers start samples features
      = c.givesAround workers start' samples features := by
  simp only [givesAround, readyAround, environmentsAround, same.environments, same.prepared,
    same.filled]

end

/-! ### Systems and their copies -/

section

variable {systems : Systems (SimpleSystem Float)}

theorem Systems.coherent_of_reached
    (reached : ∀ s ∈ systems, ∃ (start : SimpleSystem Float) (changes : List (SystemChange Float)),
      start.Fresh ∧ (SystemPast.run start changes).system = s) : ∀ s ∈ systems, s.Coherent := by
  intro s hs
  obtain ⟨start, changes, fresh, rfl⟩ := reached s hs
  exact (SystemPast.coherent_run fresh changes).system

/-- Copying systems takes their neighbor lists away. -/
theorem Systems.mapM_copyOf (coherent : ∀ s ∈ systems, s.Coherent) :
    systems.mapM SimpleSystem.copyOf = .ok (systems.map SimpleSystem.cold) := by
  have each : ∀ s ∈ systems.toList, SimpleSystem.copyOf s = pure s.cold := fun s hs =>
    SimpleSystem.copyOf_eq (coherent s (Array.mem_toList_iff.1 hs)).sizes
  rw [Array.mapM_eq_mapM_toList, except_mapM_congr each, List.mapM_pure, ← Array.toList_map]
  rfl

/-- Systems that keep lists for any cutoffs have the neighbors that their copies compute. -/
theorem Systems.sameAround_cold (coherent : ∀ s ∈ systems, s.Coherent) (cutoff : Float) :
    SameAround cutoff systems (systems.map SimpleSystem.cold) where
  count := by simp
  size i := by
    rw [elementAt, elementAt, Array.getElem?_map]
    cases systems[i]? <;> rfl
  around i := by
    rw [around, around, elementAt, elementAt, Array.getElem?_map]
    cases hs : systems[i]? with
    | none => rfl
    | some s => exact (coherent s (Array.mem_of_getElem? hs)).withNeighbors_eq cutoff

end

namespace Calculator

/-- A calculation with copies of its systems gives what it gives with the systems themselves, and
leaves the systems as they are, whatever happened to them before. -/
theorem compute_on_copies (c : Calculator Float) (workers : Workers)
    (samples features : Selection) (systems : Systems (SimpleSystem Float)) (d : Descriptor Float)
    (reached : ∀ s ∈ systems, ∃ (start : SimpleSystem Float) (changes : List (SystemChange Float)),
      start.Fresh ∧ (SystemPast.run start changes).system = s) :
    c.gives workers ⟨true, samples, features⟩ systems d
        = c.gives workers ⟨false, samples, features⟩ systems d ∧
      ((c.compute workers ⟨true, samples, features⟩).outcome (systems, d)).2.1.1 = systems := by
  have coherent := Systems.coherent_of_reached reached
  obtain ⟨copied, unchanged⟩ := c.gives_native workers samples features systems d
  refine ⟨?_, unchanged⟩
  have direct (start : Systems (SimpleSystem Float)) :
      c.gives workers ⟨false, samples, features⟩ start d
        = c.givesAround workers start samples features :=
    (c.gives_eq_givesAround workers samples features warmed_self d).1
  calc c.gives workers ⟨true, samples, features⟩ systems d
      = c.gives workers ⟨false, samples, features⟩ (systems.map SimpleSystem.cold) d := by
        rw [copied, mapM_copyOf coherent]
        rfl
    _ = c.givesAround workers (systems.map SimpleSystem.cold) samples features :=
        direct (systems.map SimpleSystem.cold)
    _ = c.givesAround workers systems samples features :=
        (givesAround_congr (sameAround_cold coherent c.kernel.cutoff) workers samples features).symm
    _ = c.gives workers ⟨false, samples, features⟩ systems d := (direct systems).symm

/-- Two atoms that were asked for their neighbors within a shorter distance than the cutoff of the
calculator. -/
theorem compute_on_copy_of_pair :
    let atoms : List (SystemChange Float) := [.addAtom 1 ⟨0, 0, 0⟩, .addAtom 6 ⟨0, 0, 1⟩]
    let pair := (SystemPast.run (.new .infinite) (atoms ++ [.computeNeighbors 0.5, .clone])).system
    let c : Calculator Float := ⟨.sortedDistances ⟨2, 3⟩, ""⟩
    (∃ (start : SimpleSystem Float) (changes : List (SystemChange Float)),
        start.Fresh ∧ (SystemPast.run start changes).system = pair) ∧
      c.gives .inOrder ⟨true, .rows [1], .all⟩ #[pair] .new
        = c.gives .inOrder ⟨false, .rows [1], .all⟩ #[pair] .new ∧
      ((c.compute .inOrder ⟨true, .rows [1], .all⟩).outcome (#[pair], .new)).2.1.1 = #[pair] := by
  intro atoms pair c
  have reached : ∃ (start : SimpleSystem Float) (changes : List (SystemChange Float)),
      start.Fresh ∧ (SystemPast.run start changes).system = pair := ⟨_, _, .new _, rfl⟩
  exact ⟨reached, c.compute_on_copies .inOrder (.rows [1]) .all #[pair] .new (by simpa using reached)⟩

end Calculator

end Atomistic
