import Mathlib
import Atomistic.Proofs.CachedNeighbors
import Atomistic.Scalar.Binary64

/-!
# Histories of simple systems

A simple system starts without a neighbor list: it is created without atoms, or copied from another
system. Then atoms are added, neighbors are asked for, and the system is cloned or copied again, in
any order, and some of the requests are refused. Whatever happened, a list that the system keeps is
the one that its atoms have now, for the cutoff of the last request that was met.

A list is used again when its cutoff compares equal to the one that is asked for. Numbers that
compare equal need not be the same, but zero is the only one that is written in two ways, and no
cutoff is zero. So the list was computed for the very same cutoff.
-/

namespace Atomistic

open Traced

/-- What compares equal to a positive finite number is this number. -/
theorem eq_of_scalarEq {x y : Float} (positive : Scalar.isPositiveFinite y = true)
    (same : Scalar.eq x y = true) : x = y := by
  obtain ⟨-, -, rfl | ⟨-, rfl⟩ | ⟨-, rfl⟩⟩ := Float.beq_iff_ne_nan_and_eq.1 same
  · rfl
  · have zero : Scalar.isPositiveFinite (-0 : Float) = false := by decide
    cases zero.symm.trans positive
  · have zero : Scalar.isPositiveFinite (0 : Float) = false := by decide
    cases zero.symm.trans positive

/-! ### Systems that keep the list of their atoms -/

namespace NeighborsList

variable {α : Type} [Scalar α] {positions : Array (Vector3 α)} {cell : UnitCell α} {cutoff : α}
  {n : NeighborsList α}

/-- A neighbor list was computed for an acceptable cutoff, which it remembers. -/
theorem of_withoutWarnings (h : withoutWarnings positions cell cutoff = .ok n) :
    Scalar.isPositiveFinite cutoff = true ∧ n.cutoff = cutoff ∧
      n.byAtom.size = positions.size := by
  rw [withoutWarnings] at h
  split at h
  · next accepted =>
    obtain ⟨met, hmet, h⟩ := except_bind_eq_ok.1 h
    obtain ⟨lists, hlists, h⟩ := except_bind_eq_ok.1 h
    cases h
    obtain ⟨lists', hlists', filled⟩ := exists_filled (joins_of_mem_gather hmet)
    cases hlists.symm.trans hlists'
    exact ⟨accepted, rfl, filled.size_eq⟩
  · cases h

omit [Scalar α] in
/-- A neighbor list has pairs for each of its atoms, and for these only. -/
theorem containing?_isSome {atom : Nat} :
    (n.containing? atom).isSome ↔ atom < n.byAtom.size := by
  rw [containing?, Option.isSome_map, isSome_getElem?]

end NeighborsList

namespace SimpleSystem

section

variable {α : Type} [Scalar α] {s w : SimpleSystem α} {cutoff : α}

/-- The system without the neighbor list that it keeps. -/
def cold (s : SimpleSystem α) : SimpleSystem α := { s with neighbors := none }

/-- Each atom has a position, and the neighbor list is the one that would be computed now. -/
structure Coherent (s : SimpleSystem α) : Prop where
  sizes : s.positions.size = s.species.size
  kept : ∀ n, s.neighbors = some n →
    NeighborsList.withoutWarnings s.positions s.cell n.cutoff = .ok n

/-- Systems without a past: created without atoms, or copied from a system of any type. -/
inductive Fresh : SimpleSystem α → Prop where
  | new (cell : UnitCell α) : Fresh (new cell)
  | copied {σ : Type} [AtomicSystem σ α] {original : σ} {s : SimpleSystem α}
      (copy : copyOf original = .ok s) : Fresh s

omit [Scalar α] in
/-- A copy has as many positions as atoms, and no neighbor list. -/
theorem of_copyOf {σ : Type} [AtomicSystem σ α] {original : σ} (h : copyOf original = .ok s) :
    s.positions.size = s.species.size ∧ s.neighbors = none := by
  rw [copyOf] at h
  obtain ⟨species, -, h⟩ := except_bind_eq_ok.1 h
  obtain ⟨positions, -, h⟩ := except_bind_eq_ok.1 h
  obtain ⟨size, -, h⟩ := except_bind_eq_ok.1 h
  split at h
  · cases h
  · next same =>
    obtain ⟨cell, -, h⟩ := except_bind_eq_ok.1 h
    cases h
    simp only [ne_eq, decide_not, Bool.or_eq_true, Bool.not_eq_eq_eq_not, Bool.not_true,
      decide_eq_false_iff_not, not_or, not_not] at same
    exact ⟨same.2.trans same.1.symm, rfl⟩

omit [Scalar α] in
theorem Fresh.starts (h : Fresh s) : s.positions.size = s.species.size ∧ s.neighbors = none := by
  cases h with
  | new cell => exact ⟨rfl, rfl⟩
  | copied copy => exact of_copyOf copy

theorem coherent_of_none (sizes : s.positions.size = s.species.size) (h : s.neighbors = none) :
    s.Coherent where
  sizes := sizes
  kept n hn := by
    rw [h] at hn
    cases hn

/-- Without a neighbor list there are no answers about pairs. -/
theorem pairs_eq_error : (∃ e, AtomicSystem.pairs s = .error e) ↔ s.neighbors = none := by
  rcases s with ⟨cell, species, positions, _ | n⟩
  · exact ⟨fun _ => rfl, fun _ => ⟨_, rfl⟩⟩
  · constructor <;> rintro ⟨⟩
    contradiction

/-- With a neighbor list they are all pairs in it. -/
theorem pairs_of_some {n : NeighborsList α} (kept : s.neighbors = some n) :
    AtomicSystem.pairs s = .ok n.pairs := by
  change currentNeighbors s >>= (fun n => pure n.pairs) = _
  rw [currentNeighbors, kept]
  rfl

/-- A request that is refused leaves the system as it was. -/
theorem eq_of_refused {e : Error} (refused : ((computeNeighbors cutoff).outcome s).1 = .error e) :
    ((computeNeighbors cutoff).outcome s).2.1 = s := by
  obtain ⟨answer, after⟩ := (ensures_computeNeighbors cutoff s).outcome
  rw [after]
  rw [answer] at refused
  cases answered : s.withNeighbors cutoff with
  | error e => rfl
  | ok w =>
    rw [answered] at refused
    cases refused

theorem pairsContaining_kept {n : NeighborsList α} (kept : s.neighbors = some n) (atom : Nat) :
    AtomicSystem.pairsContaining s atom = match n.containing? atom with
      | some pairs => .ok pairs
      | none => .error (.parameter (.atomOutOfBounds atom s.species.size)) := by
  change pairsContaining s atom = _
  rw [pairsContaining, currentNeighbors, kept]
  rfl

/-- With a neighbor list the answers are in it, for each of its atoms. -/
theorem pairsContaining_of_some {n : NeighborsList α} (kept : s.neighbors = some n) {atom : Nat}
    (there : atom < n.byAtom.size) : ∃ pairs, n.containing? atom = some pairs ∧
      AtomicSystem.pairsContaining s atom = .ok pairs := by
  obtain ⟨pairs, hpairs⟩ := Option.isSome_iff_exists.1 (NeighborsList.containing?_isSome.2 there)
  exact ⟨pairs, hpairs, by rw [pairsContaining_kept kept, hpairs]⟩

/-- No atom beyond the last one has pairs. -/
theorem Coherent.pairsContaining_beyond (h : s.Coherent) {atom : Nat}
    (beyond : s.species.size ≤ atom) : ∃ e, AtomicSystem.pairsContaining s atom = .error e := by
  cases kept : s.neighbors with
  | none =>
    change ∃ e, pairsContaining s atom = .error e
    rw [pairsContaining, currentNeighbors, kept]
    exact ⟨_, rfl⟩
  | some n =>
    obtain ⟨-, -, size⟩ := NeighborsList.of_withoutWarnings (h.kept n kept)
    have missing : n.containing? atom = none := by
      rw [NeighborsList.containing?, Array.getElem?_eq_none (by rw [size, h.sizes]; exact beyond)]
      rfl
    rw [pairsContaining_kept kept, missing]
    exact ⟨_, rfl⟩

/-- A copy of a simple system is the system without its neighbor list. -/
theorem copyOf_eq (sizes : s.positions.size = s.species.size) : copyOf s = .ok s.cold := by
  simp [copyOf, AtomicSystem.species, AtomicSystem.positions, AtomicSystem.size, AtomicSystem.cell,
    bind, Except.bind, sizes, pure, Except.pure, cold]

/-- A system that keeps no list computes the one that is asked for. -/
theorem cold_withNeighbors_eq_ok : s.cold.withNeighbors cutoff = .ok w ↔
    Scalar.isPositiveFinite cutoff = true ∧
      ∃ n, NeighborsList.withoutWarnings s.positions s.cell cutoff = .ok n ∧
        { s with neighbors := some n } = w := by
  have none : s.cold.hasNeighborsFor cutoff = false := rfl
  simp only [withNeighbors_eq_ok, none, Bool.false_eq_true, false_and, true_and, false_or]
  rfl

end

section

variable {s w : SimpleSystem Float} {cutoff : Float}

/-- The list that is there for a cutoff is the one that would be computed for it. -/
theorem Coherent.withNeighbors_eq (h : s.Coherent) (cutoff : Float) :
    s.withNeighbors cutoff = s.cold.withNeighbors cutoff := by
  rcases s with ⟨cell, species, positions, _ | n⟩
  · rfl
  rw [withNeighbors, withNeighbors]
  split
  · next accepted =>
    split
    · next same =>
      obtain rfl := eq_of_scalarEq accepted same
      have found := h.kept n rfl
      dsimp only [cold] at found ⊢
      rw [found]
      rfl
    · rfl
  · rfl

/-- Being asked for its neighbors leaves a system with the list of its atoms for this cutoff. -/
theorem Coherent.of_withNeighbors (h : s.Coherent) (asked : s.withNeighbors cutoff = .ok w) :
    w.Coherent ∧ w.neighbors.map (·.cutoff) = some cutoff := by
  rw [h.withNeighbors_eq, cold_withNeighbors_eq_ok] at asked
  obtain ⟨-, n, found, rfl⟩ := asked
  obtain ⟨-, rfl, -⟩ := NeighborsList.of_withoutWarnings found
  refine ⟨⟨h.sizes, ?_⟩, rfl⟩
  rintro _ ⟨⟩
  exact found

end

end SimpleSystem

/-! ### Histories -/

/-- What happens to a system: it is given an atom, asked for its neighbors, or replaced by a clone
or by a copy of its atoms. -/
inductive SystemChange (α : Type) where
  | addAtom (species : Int) (position : Vector3 α)
  | computeNeighbors (cutoff : α)
  | clone
  | copy

/-- A system after some changes, and the cutoff of the last request for its neighbors that was met
since it was created, copied, or given an atom. -/
structure SystemPast (α : Type) where
  system : SimpleSystem α
  asked : Option α

/-- One more change. A request that is refused counts for nothing, and neither does a copy that
fails. -/
def SystemChange.apply {α : Type} [Scalar α] (past : SystemPast α) : SystemChange α → SystemPast α
  | addAtom species position => ⟨past.system.addAtom species position, none⟩
  | computeNeighbors cutoff =>
    let (answer, system, _) := (SimpleSystem.computeNeighbors cutoff).outcome past.system
    match answer with
    | .ok _ => ⟨system, some cutoff⟩
    | .error _ => ⟨system, past.asked⟩
  | clone => past
  | copy =>
    match SimpleSystem.copyOf past.system with
    | .ok system => ⟨system, none⟩
    | .error _ => past

namespace SystemPast

/-- Changes one after the other. -/
def run {α : Type} [Scalar α] (start : SimpleSystem α) (changes : List (SystemChange α)) :
    SystemPast α :=
  changes.foldl SystemChange.apply ⟨start, none⟩

/-- The system keeps the list of its atoms for the cutoff of the last request that was met. -/
structure Coherent {α : Type} [Scalar α] (past : SystemPast α) : Prop where
  system : past.system.Coherent
  asked : past.asked = past.system.neighbors.map (·.cutoff)

variable {past : SystemPast Float} {start : SimpleSystem Float}

/-- Every change preserves that. -/
theorem coherent_step (h : past.Coherent) (change : SystemChange Float) :
    (change.apply past).Coherent := by
  cases change with
  | addAtom species position =>
    refine ⟨SimpleSystem.coherent_of_none ?_ rfl, rfl⟩
    have sizes := h.system.sizes
    simp [SystemChange.apply, SimpleSystem.addAtom, sizes]
  | computeNeighbors cutoff =>
    have ran := (SimpleSystem.ensures_computeNeighbors cutoff past.system).outcome
    rw [SystemChange.apply]
    obtain ⟨answer, after⟩ := ran
    cases asked : past.system.withNeighbors cutoff with
    | error e =>
      rw [asked] at answer after
      dsimp only
      rw [answer, after]
      exact h
    | ok w =>
      rw [asked] at answer after
      obtain ⟨system, cutoffs⟩ := h.system.of_withNeighbors asked
      dsimp only
      rw [answer, after]
      exact ⟨system, cutoffs.symm⟩
  | clone => exact h
  | copy =>
    rw [SystemChange.apply, SimpleSystem.copyOf_eq h.system.sizes]
    exact ⟨SimpleSystem.coherent_of_none h.system.sizes rfl, rfl⟩

/-- So every history does. -/
theorem coherent_run (fresh : start.Fresh) (changes : List (SystemChange Float)) :
    (run start changes).Coherent := by
  suffices after : ∀ past : SystemPast Float, past.Coherent →
      (changes.foldl SystemChange.apply past).Coherent by
    refine after ⟨start, none⟩ ⟨?_, ?_⟩
    · exact SimpleSystem.coherent_of_none fresh.starts.1 fresh.starts.2
    · rw [fresh.starts.2]
      rfl
  induction changes with
  | nil => exact fun _ h => h
  | cons change changes ih => exact fun past h => ih _ (coherent_step h change)

/-- What a system answers about its pairs after any history. There are no answers when no request
for neighbors was met since the atoms are what they are. Otherwise the answers are those of a
neighbor list computed now, for the cutoff of the last request that was met. A request that is
refused leaves the system as it was, and no system has pairs for an atom beyond its last one. -/
theorem pairs_after_history (fresh : start.Fresh) (changes : List (SystemChange Float)) :
    let past := run start changes
    let s := past.system
    ((∃ e, AtomicSystem.pairs s = .error e) ↔ past.asked = none) ∧
      (∀ cutoff, past.asked = some cutoff → ∃ n,
        ((NeighborsList.new .checked s.positions s.cell cutoff).outcome ()).1 = .ok n ∧
          AtomicSystem.pairs s = .ok n.pairs ∧
          ∀ atom < s.species.size, ∃ pairs, n.containing? atom = some pairs ∧
            AtomicSystem.pairsContaining s atom = .ok pairs) ∧
      (∀ atom, s.species.size ≤ atom → ∃ e, AtomicSystem.pairsContaining s atom = .error e) ∧
      ∀ cutoff e, ((SimpleSystem.computeNeighbors cutoff).outcome s).1 = .error e →
        ((SimpleSystem.computeNeighbors cutoff).outcome s).2.1 = s := by
  intro past s
  obtain ⟨coherent, asked⟩ : past.Coherent := coherent_run fresh changes
  refine ⟨?_, ?_, fun atom beyond => coherent.pairsContaining_beyond beyond, ?_⟩
  · rw [SimpleSystem.pairs_eq_error, asked, Option.map_eq_none_iff]
  · rintro cutoff last
    rw [asked, Option.map_eq_some_iff] at last
    obtain ⟨n, kept, rfl⟩ := last
    have found := coherent.kept n kept
    obtain ⟨-, -, size⟩ := NeighborsList.of_withoutWarnings found
    refine ⟨n, ?_, ?_, fun atom there => ?_⟩
    · exact NeighborsList.ensures_new.outcome.trans found
    · exact SimpleSystem.pairs_of_some kept
    · refine SimpleSystem.pairsContaining_of_some kept ?_
      rw [size, coherent.sizes]
      exact there
  · exact fun cutoff e refused => SimpleSystem.eq_of_refused refused

/-- A system whose only request is refused has no pairs, and neither has its clone. -/
theorem no_pairs_after_refused_request :
    let start : SimpleSystem Float := .new .infinite
    start.Fresh ∧ ∃ e, AtomicSystem.pairs
      (run start [.addAtom 1 ⟨0, 0, 0⟩, .computeNeighbors (0 / 0), .clone]).system = .error e :=
  ⟨.new _, (pairs_after_history (.new _) _).1.2 rfl⟩

end SystemPast

end Atomistic
