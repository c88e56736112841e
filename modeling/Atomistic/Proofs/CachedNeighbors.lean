import Atomistic.AtomicSystem.Simple
import Atomistic.AtomicSystem.Systems
import Atomistic.Proofs.LabelTables
import Atomistic.Proofs.NeighborWarnings
import Atomistic.Proofs.Traced

/-!
# Neighbor lists that systems keep

A simple system keeps the neighbor list that it computed last, and computes none for a cutoff that
it has one for. So a system may be asked for its neighbors any number of times: the first time
decides what it answers from then on. For many systems, of which any may have been asked before, the
answers are those of the systems as they were at the beginning, each of them asked for its neighbors
once.
-/

namespace Atomistic

open Traced

variable {α β : Type} [Scalar α]

/-! ### One neighbor list -/

namespace NeighborsList

variable {positions : Array (Vector3 α)} {cell : UnitCell α} {cutoff : α}

/-- The neighbor list of some positions, without its warnings. -/
def withoutWarnings (positions : Array (Vector3 α)) (cell : UnitCell α) (cutoff : α) :
    Except Error (NeighborsList α) :=
  if Scalar.isPositiveFinite cutoff then do
    let met ← imagesWithin .checked positions cell cutoff
    let pairs := (gather met).map (·.closest)
    let byAtom ← pairs.foldlM enlist (Array.replicate positions.size #[])
    return ⟨cutoff, pairs, byAtom⟩
  else .error (.panic .neighborCutoff)

theorem ensures_new : Ensures (new .checked positions cell cutoff) () fun r _ =>
    r = withoutWarnings positions cell cutoff := by
  rw [withoutWarnings]
  split
  · next accepted =>
    rw [new_eq accepted]
    refine ensures_within (ensures_ofExcept_bind (fun met hmet => ?_) fun e he => ?_)
    · obtain ⟨collected, hcollected, of⟩ := Collected.exists_ofImages met
      obtain ⟨texts, htexts, -⟩ := of.exists_warnings
      refine ensures_of_ok_bind hcollected (ensures_of_ok_bind htexts (ensures_logGroups_bind ?_))
      rw [hmet, of.sorted_eq]
      change Ensures _ () fun r _ => r = List.foldlM enlist _ _ >>= _
      refine ensures_ofExcept_bind (fun lists hlists => ensures_pure ?_) fun e he => ?_
      · rw [hlists]
        rfl
      · rw [he]
        rfl
    · rw [he]
      rfl
  · next refused =>
    rw [Bool.not_eq_true] at refused
    rw [new, refused]
    exact ensures_within (ensures_throw rfl)

end NeighborsList

/-! ### One system -/

namespace SimpleSystem

variable {cutoff : α} {s s' w : SimpleSystem α}

/-- The system after it was asked for its neighbors. -/
def withNeighbors (cutoff : α) (s : SimpleSystem α) : Except Error (SimpleSystem α) :=
  if Scalar.isPositiveFinite cutoff then
    if s.hasNeighborsFor cutoff then .ok s
    else (NeighborsList.withoutWarnings s.positions s.cell cutoff).map fun n =>
      { s with neighbors := some n }
  else .error (.parameter (.neighborCutoff (Scalar.text cutoff)))

/-- A system that is not given its neighbors stays as it was. -/
theorem ensures_computeNeighbors (cutoff : α) (s : SimpleSystem α) :
    Ensures (computeNeighbors cutoff) s fun r s' =>
      r = (s.withNeighbors cutoff).map (fun _ => ()) ∧
        s' = (s.withNeighbors cutoff).toOption.getD s := by
  rw [computeNeighbors, withNeighbors]
  split
  · refine ensures_value_bind ?_
    split
    · exact ensures_pure ⟨rfl, rfl⟩
    · refine ensures_stateless_bind (ensures_mono NeighborsList.ensures_new ?_)
      rintro r _ rfl
      cases NeighborsList.withoutWarnings s.positions s.cell cutoff with
      | error e => exact ⟨rfl, rfl⟩
      | ok n =>
        dsimp only [andThen]
        exact ensures_setValue ⟨rfl, rfl⟩
  · intro trace
    exact ⟨rfl, rfl⟩

theorem withNeighbors_eq_ok : s.withNeighbors cutoff = .ok w ↔
    Scalar.isPositiveFinite cutoff = true ∧
      (s.hasNeighborsFor cutoff = true ∧ s = w ∨
        s.hasNeighborsFor cutoff = false ∧
          ∃ n, NeighborsList.withoutWarnings s.positions s.cell cutoff = .ok n ∧
            { s with neighbors := some n } = w) := by
  rw [withNeighbors]
  split
  · next accepted =>
    split
    · next kept => simp [accepted, kept]
    · next computed =>
      cases NeighborsList.withoutWarnings s.positions s.cell cutoff <;>
        simp [Except.map, accepted, computed]
  · next refused => simp [refused]

/-- Being asked for its neighbors leaves a system its atoms and its cell. -/
theorem eq_of_withNeighbors (h : s.withNeighbors cutoff = .ok w) :
    ∃ n, w = { s with neighbors := n } := by
  obtain ⟨-, ⟨-, rfl⟩ | ⟨-, n, -, rfl⟩⟩ := withNeighbors_eq_ok.1 h
  · exact ⟨s.neighbors, rfl⟩
  · exact ⟨some n, rfl⟩

/-- A system that was asked for its neighbors keeps them. -/
theorem withNeighbors_withNeighbors (h : s.withNeighbors cutoff = .ok w) :
    w.withNeighbors cutoff = .ok w := by
  obtain ⟨accepted, ⟨-, rfl⟩ | ⟨-, n, hn, rfl⟩⟩ := withNeighbors_eq_ok.1 h
  · exact h
  · refine withNeighbors_eq_ok.2 ⟨accepted, ?_⟩
    -- the list that is there now is the one that would be found again
    cases kept : hasNeighborsFor { s with neighbors := some n } cutoff with
    | true => exact .inl ⟨rfl, rfl⟩
    | false => exact .inr ⟨rfl, n, hn, rfl⟩

/-- The system itself, or the system after it was asked for its neighbors. -/
inductive Warmed (cutoff : α) (s : SimpleSystem α) : SimpleSystem α → Prop where
  | cold : Warmed cutoff s s
  | warm {w : SimpleSystem α} (asked : s.withNeighbors cutoff = .ok w) : Warmed cutoff s w

theorem Warmed.withNeighbors_eq (h : Warmed cutoff s s') :
    s'.withNeighbors cutoff = s.withNeighbors cutoff := by
  cases h with
  | cold => rfl
  | warm asked => rw [withNeighbors_withNeighbors asked, asked]

theorem Warmed.atoms_eq (h : Warmed cutoff s s') : ∃ n, s' = { s with neighbors := n } := by
  cases h with
  | cold => exact ⟨s.neighbors, rfl⟩
  | warm asked => exact eq_of_withNeighbors asked

end SimpleSystem

/-! ### Many systems -/

namespace Systems

variable {cutoff : α} {start v : Systems (SimpleSystem α)} {asked : List Nat} {i : Nat}

/-- The system of some number after it was asked for its neighbors. -/
def around (cutoff : α) (start : Systems (SimpleSystem α)) (i : Nat) :
    Except Error (SimpleSystem α) := do
  (← elementAt start i).withNeighbors cutoff

/-- What systems become by being asked for their neighbors, the systems of the given numbers among
others. -/
structure Warmed (cutoff : α) (start : Systems (SimpleSystem α)) (asked : List Nat)
    (v : Systems (SimpleSystem α)) : Prop where
  size : v.size = start.size
  each : ∀ (i : Nat) (s s' : SimpleSystem α), start[i]? = some s → v[i]? = some s' →
    s.Warmed cutoff s'
  asked : ∀ i ∈ asked, elementAt v i = around cutoff start i

theorem warmed_self : Warmed cutoff start [] start where
  size := rfl
  each i s s' hs hs' := by
    rw [hs] at hs'
    cases hs'
    exact .cold
  asked := nofun

theorem Warmed.of_subset {less : List Nat} (h : Warmed cutoff start asked v) (sub : less ⊆ asked) :
    Warmed cutoff start less v :=
  ⟨h.size, h.each, fun i hi => h.asked i (sub hi)⟩

/-- The numbers of the systems do not change. -/
theorem settles_numbers : Settles (Warmed cutoff start asked) numbers
    (.ok (List.range start.size)) (Warmed cutoff start asked) := fun v hv =>
  ensures_value_bind (ensures_pure ⟨by rw [hv.size], fun _ _ => hv⟩)

theorem elementAt_of_some {σ : Type} {v : Array σ} {e : σ} (h : v[i]? = some e) :
    elementAt v i = .ok e := by
  rw [elementAt, h]

theorem elementAt_of_none {σ : Type} {v : Array σ} (h : v[i]? = none) :
    elementAt v i = .error (.panic .unspecified) := by
  rw [elementAt, h]

omit [Scalar α] in
/-- A question leaves the systems as they are. -/
theorem ensures_systemsAsk {σ : Type} [AtomicSystem σ α] {v : Systems σ}
    {question : σ → Except Error β} {post : Except Error β → Systems σ → Prop}
    (h : post (elementAt v i >>= question) v) : Ensures (ask i question) v post := by
  refine ensures_atIndex (fun s hs => ensures_ask ?_) fun missing => ?_
  · rw [elementAt_of_some hs] at h
    rw [setIfInBounds_self hs]
    exact h
  · rw [elementAt_of_none missing] at h
    exact h

/-- A question that is not about neighbors has the answer that it had at the beginning. -/
theorem settles_ask {question : SimpleSystem α → Except Error β}
    (atoms : ∀ s n, question { s with neighbors := n } = question s) :
    Settles (Warmed cutoff start asked) (ask i question) (elementAt start i >>= question)
      (Warmed cutoff start asked) := by
  refine fun v hv => ensures_systemsAsk ⟨?_, fun _ _ => hv⟩
  cases hs : start[i]? with
  | none =>
    have missing : v[i]? = none := by
      rw [Array.getElem?_eq_none_iff] at hs ⊢
      exact hv.size ▸ hs
    rw [elementAt_of_none hs, elementAt_of_none missing]
  | some s =>
    obtain ⟨s', hs'⟩ : ∃ s', v[i]? = some s' :=
      ⟨_, Array.getElem?_eq_getElem (hv.size ▸ (Array.getElem?_eq_some_iff.1 hs).1)⟩
    obtain ⟨n, rfl⟩ := (hv.each i s s' hs hs').atoms_eq
    rw [elementAt_of_some hs, elementAt_of_some hs']
    exact atoms s n

/-- A system that was asked for its neighbors can be asked anything. -/
theorem settles_ask_around {question : SimpleSystem α → Except Error β} {s : SimpleSystem α}
    (hi : i ∈ asked) (hs : around cutoff start i = .ok s) :
    Settles (Warmed cutoff start asked) (ask i question) (question s)
      (Warmed cutoff start asked) :=
  fun v hv => ensures_systemsAsk ⟨by rw [hv.asked i hi, hs]; rfl, fun _ _ => hv⟩

theorem around_eq (h : Warmed cutoff start asked v) {s' : SimpleSystem α} (hs' : v[i]? = some s') :
    around cutoff start i = s'.withNeighbors cutoff := by
  have there : i < start.size := h.size ▸ (Array.getElem?_eq_some_iff.1 hs').1
  have hs := Array.getElem?_eq_getElem there
  rw [(h.each i _ s' hs hs').withNeighbors_eq, around, elementAt_of_some hs]
  rfl

/-- A system that was asked for its neighbors is one of those that were. -/
theorem Warmed.insert (h : Warmed cutoff start asked v) (there : i < v.size) {w : SimpleSystem α}
    (hw : around cutoff start i = .ok w) :
    Warmed cutoff start (i :: asked) (v.setIfInBounds i w) where
  size := by simp [h.size]
  each j s s' hs hs' := by
    rw [Array.getElem?_setIfInBounds] at hs'
    split at hs'
    · next here =>
      subst here
      cases hs'
      rw [around, elementAt_of_some hs] at hw
      exact .warm hw
    · exact h.each j s s' hs hs'
  asked j hj := by
    by_cases here : i = j
    · subst here
      rw [hw]
      exact elementAt_of_some (Array.getElem?_setIfInBounds_self_of_lt there)
    · rw [elementAt, Array.getElem?_setIfInBounds_ne here]
      exact h.asked j (List.mem_of_ne_of_mem (Ne.symm here) hj)

/-- Asking a system for its neighbors adds it to those that were asked. -/
theorem settles_computeNeighbors : Settles (Warmed cutoff start asked) (computeNeighbors cutoff i)
    ((around cutoff start i).map fun _ => ()) (Warmed cutoff start (i :: asked)) := by
  intro v hv
  refine ensures_atIndex (fun s' hs' => ?_) fun missing => ?_
  · refine ensures_mono (SimpleSystem.ensures_computeNeighbors cutoff s') ?_
    rintro r w ⟨rfl, rfl⟩
    rw [around_eq hv hs']
    refine ⟨rfl, fun _ answered => ?_⟩
    cases warm : s'.withNeighbors cutoff with
    | error e =>
      rw [warm] at answered
      cases answered
    | ok s'' => exact hv.insert (Array.getElem?_eq_some_iff.1 hs').1 ((around_eq hv hs').trans warm)
  · have none : start[i]? = none := by
      rw [Array.getElem?_eq_none_iff] at missing ⊢
      exact hv.size ▸ missing
    rw [around, elementAt_of_none none]
    exact ⟨rfl, nofun⟩

/-- What is done with a system after it was asked for its neighbors. -/
theorem settles_computeNeighbors_bind {γ : Type} {f : Unit → Traced (Systems (SimpleSystem α)) γ}
    {g : SimpleSystem α → Except Error γ}
    (h : ∀ s, around cutoff start i = .ok s →
      Settles (Warmed cutoff start (i :: asked)) (f ()) (g s) (Warmed cutoff start (i :: asked))) :
    Settles (Warmed cutoff start asked) (computeNeighbors cutoff i >>= f)
      (around cutoff start i >>= g) (Warmed cutoff start asked) := by
  have first : Settles (Warmed cutoff start asked) (computeNeighbors cutoff i) _ _ :=
    settles_computeNeighbors
  have back : ∀ v, Warmed cutoff start (i :: asked) v → Warmed cutoff start asked v :=
    fun v hv => hv.of_subset (List.subset_cons_self i asked)
  cases hs : around cutoff start i with
  | error e =>
    rw [hs] at first
    exact settles_bind (g := fun _ => .error e) (first.weaken (fun _ h => h) back) nofun
  | ok s =>
    rw [hs] at first
    exact settles_bind (g := fun _ => g s) first fun _ _ => (h s hs).weaken (fun _ h => h) back

/-- Systems are asked for their neighbors one after the other. -/
theorem settles_forM_computeNeighbors : ∀ (numbers asked : List Nat),
    Settles (Warmed cutoff start asked) (numbers.forM (computeNeighbors cutoff))
      (numbers.forM fun i => (around cutoff start i).map fun _ => ())
      (Warmed cutoff start (numbers ++ asked))
  | [], asked => settles_pure ()
  | i :: numbers, asked => by
    rw [List.forM_eq_forM, List.forM_cons, List.forM_eq_forM, List.forM_cons]
    refine settles_bind settles_computeNeighbors fun _ _ => ?_
    refine (settles_forM_computeNeighbors numbers (i :: asked)).weaken (fun _ h => h) ?_
    exact fun v hv => hv.of_subset List.perm_middle.symm.subset

end Systems

end Atomistic
