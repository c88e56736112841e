import Atomistic.AtomicSystem.Recorded
import Atomistic.Proofs.CachedNeighbors
import Atomistic.Proofs.Reliance
import Mathlib.Data.Sym.Sym2

/-!
# Systems that keep their contract

A system is an object that somebody else has written, and it changes when it is asked for its
neighbors. It keeps its contract if there is an account of it that all of its answers agree with:
each question has one answer, the species and positions are those of its atoms, and pairs are pairs
of its atoms. A call may fail all the same. Recorded systems whose records agree keep the account
that is made of them, whatever they refuse.
-/

namespace Atomistic

open Traced

variable {σ α β : Type}

/-! ### Accounts -/

/-- What a system answers. -/
structure Account (α : Type) where
  size : Nat
  species : Array Int
  positions : Array (Vector3 α)
  pairs : List (Pair α)
  /-- The pairs of each atom. -/
  pairsContaining : Nat → List (Pair α)
  size_le : size ≤ maxLabel
  size_species : species.size = size
  size_positions : positions.size = size
  /-- Species are labels. -/
  species_le : ∀ s ∈ species, s ≤ (maxLabel : Int)
  pairs_lt : ∀ p ∈ pairs, p.first < size ∧ p.second < size
  pairsContaining_lt : ∀ atom < size, ∀ p ∈ pairsContaining atom, p.first < size ∧ p.second < size

/-- No atom is paired with itself, and no two atoms are paired twice. -/
structure Account.PairsOnce (a : Account α) : Prop where
  apart : ∀ p ∈ a.pairs, p.first ≠ p.second
  once : a.pairs.Pairwise fun p q => s(p.first, p.second) ≠ s(q.first, q.second)

/-- The calls that calculations make to a system. -/
inductive Question where
  | size
  | species
  | positions
  | neighbors
  | pairs
  | pairsContaining (atom : Nat)
  deriving DecidableEq, Repr

/-- The request to a recorded system. -/
def Question.request : Question → Request
  | size => .size
  | species => .species
  | positions => .positions
  | neighbors => .computeNeighbors
  | pairs => .pairs
  | pairsContaining _ => .pairsContaining

section OneSystem

variable [AtomicSystem σ α]

/-- The states that a system comes to by being given its neighbors `n` times. -/
inductive Reaches (cutoff : α) (s : σ) : Nat → σ → Prop where
  | start : Reaches cutoff s 0 s
  | next {n : Nat} {v w : σ} {trace trace' : Trace} (before : Reaches cutoff s n v)
    (answered : AtomicSystem.computeNeighbors cutoff (v, trace) = .ok () (w, trace')) :
    Reaches cutoff s (n + 1) w

/-- How calls end to a system that was given its neighbors `n` times. Nobody asks for pairs before
that. -/
inductive Question.Ends (cutoff : α) (s : σ) : Nat → Question → Except Error Unit → Prop where
  | size {n : Nat} {v : σ} (now : Reaches cutoff s n v) :
    Ends cutoff s n .size ((AtomicSystem.size v).map fun _ => ())
  | species {n : Nat} {v : σ} (now : Reaches cutoff s n v) :
    Ends cutoff s n .species ((AtomicSystem.species v).map fun _ => ())
  | positions {n : Nat} {v : σ} (now : Reaches cutoff s n v) :
    Ends cutoff s n .positions ((AtomicSystem.positions v).map fun _ => ())
  | neighbors {n : Nat} {v : σ} {trace : Trace} (now : Reaches cutoff s n v) :
    Ends cutoff s n .neighbors (ending (AtomicSystem.computeNeighbors cutoff (v, trace))).1
  | pairs {n : Nat} {v : σ} (now : Reaches cutoff s (n + 1) v) :
    Ends cutoff s (n + 1) .pairs ((AtomicSystem.pairs v).map fun _ => ())
  | pairsContaining {n : Nat} {v : σ} {atom : Nat} (now : Reaches cutoff s (n + 1) v) :
    Ends cutoff s (n + 1) (.pairsContaining atom)
      ((AtomicSystem.pairsContaining v atom).map fun _ => ())

/-- All answers of a system, from the state `s` on, are those of its account. -/
structure Account.KeptBy (a : Account α) (cutoff : α) (s : σ) : Prop where
  size : ∀ {n : Nat} {v : σ} {size : Nat}, Reaches cutoff s n v →
    AtomicSystem.size v = .ok size → size = a.size
  species : ∀ {n : Nat} {v : σ} {species : Array Int}, Reaches cutoff s n v →
    AtomicSystem.species v = .ok species → species = a.species
  positions : ∀ {n : Nat} {v : σ} {positions : Array (Vector3 α)}, Reaches cutoff s n v →
    AtomicSystem.positions v = .ok positions → positions = a.positions
  pairs : ∀ {n : Nat} {v : σ} {pairs : List (Pair α)}, Reaches cutoff s (n + 1) v →
    AtomicSystem.pairs v = .ok pairs → pairs = a.pairs
  pairsContaining : ∀ {n : Nat} {v : σ} {atom : Nat} {pairs : List (Pair α)},
    Reaches cutoff s (n + 1) v → atom < a.size →
      AtomicSystem.pairsContaining v atom = .ok pairs → pairs = a.pairsContaining atom

section Later

variable {cutoff : α} {s v w : σ} {m n : Nat}

theorem Reaches.trans (h : Reaches cutoff s m v) (h' : Reaches cutoff v n w) :
    Reaches cutoff s (m + n) w := by
  induction h' with
  | start => exact h
  | next _ answered ih => exact ih.next answered

/-- How calls end to a system in a later state. -/
theorem Question.Ends.after {q : Question} {r : Except Error Unit} (h : q.Ends cutoff v n r)
    (past : Reaches cutoff s m v) : q.Ends cutoff s (m + n) r := by
  cases h with
  | size now => exact .size (past.trans now)
  | species now => exact .species (past.trans now)
  | positions now => exact .positions (past.trans now)
  | neighbors now => exact .neighbors (past.trans now)
  | pairs now => exact .pairs (past.trans now)
  | pairsContaining now => exact .pairsContaining (past.trans now)

/-- The account of a system is that of its later states. -/
theorem Account.KeptBy.after {a : Account α} (h : a.KeptBy cutoff s)
    (past : Reaches cutoff s m v) : a.KeptBy cutoff v where
  size now := h.size (past.trans now)
  species now := h.species (past.trans now)
  positions now := h.positions (past.trans now)
  pairs {k _ _} now := h.pairs (n := m + k) (past.trans now)
  pairsContaining {k _ _ _} now := h.pairsContaining (n := m + k) (past.trans now)

end Later

end OneSystem

/-! ### Lists of systems -/

/-- A call to one of several systems. -/
structure SystemCall where
  /-- The number of the system. -/
  system : Nat
  /-- How often it was given its neighbors before. -/
  round : Nat
  question : Question

namespace Systems

/-- The calls of a visit: a system is asked for its neighbors, and then some questions. -/
def visit (i round : Nat) (questions : Set Question) : Set SystemCall :=
  insert ⟨i, round, .neighbors⟩ (SystemCall.mk i (round + 1) '' questions)

/-- How often systems were given their neighbors, after each of some of them was given them once
more. -/
def raise (counts : Nat → Nat) (numbers : List Nat) : Nat → Nat := fun i =>
  if i ∈ numbers then counts i + 1 else counts i

theorem raise_of_mem {counts : Nat → Nat} {numbers : List Nat} {i : Nat} (h : i ∈ numbers) :
    raise counts numbers i = counts i + 1 := if_pos h

theorem raise_of_not_mem {counts : Nat → Nat} {numbers : List Nat} {i : Nat} (h : i ∉ numbers) :
    raise counts numbers i = counts i := if_neg h

theorem raise_cons {counts : Nat → Nat} {i : Nat} {numbers : List Nat} (h : i ∉ numbers) :
    raise (raise counts [i]) numbers = raise counts (i :: numbers) := by
  funext j
  by_cases here : j = i
  · subst here
    simp [raise, h]
  · simp [raise, here]

variable [AtomicSystem σ α]

/-- How calls to the systems may end. -/
def Ends (cutoff : α) (start : Systems σ) (call : SystemCall) (r : Except Error Unit) : Prop :=
  ∃ s, start[call.system]? = some s ∧ call.question.Ends cutoff s call.round r

/-- Systems that keep their accounts, and are not too many for labels. -/
structure Keep (cutoff : α) (start : Systems σ) (accounts : Nat → Account α) : Prop where
  size_le : start.size ≤ maxLabel
  each : ∀ i s, start[i]? = some s → (accounts i).KeptBy cutoff s

/-- Every call is answered, but for pairs of atoms that there are not. -/
def Answering (cutoff : α) (start : Systems σ) (accounts : Nat → Account α) : Prop :=
  ∀ (call : SystemCall) (e : Error),
    (∀ atom, call.question = .pairsContaining atom → atom < (accounts call.system).size) →
      ¬Ends cutoff start call (.error e)

/-- The systems in the states that they have come to, being given their neighbors so many times. -/
structure Reached (cutoff : α) (start : Systems σ) (counts : Nat → Nat) (v : Systems σ) :
    Prop where
  size : v.size = start.size
  each : ∀ i s w, start[i]? = some s → v[i]? = some w → Reaches cutoff s (counts i) w

variable {cutoff : α} {start v : Systems σ} {counts : Nat → Nat} {i n : Nat}

theorem reached_start : Reached cutoff start (fun _ => 0) start where
  size := rfl
  each i s w hs hw := by
    cases hs.symm.trans hw
    exact .start

theorem Reached.exists_getElem? (h : Reached cutoff start counts v) (there : i < start.size) :
    ∃ s w, start[i]? = some s ∧ v[i]? = some w ∧ Reaches cutoff s (counts i) w := by
  have hs := Array.getElem?_eq_getElem there
  have hw := Array.getElem?_eq_getElem (h.size ▸ there : i < v.size)
  exact ⟨_, _, hs, hw, h.each i _ _ hs hw⟩

theorem Reached.exists_start (h : Reached cutoff start counts v) {w : σ} (hw : v[i]? = some w) :
    ∃ s, start[i]? = some s ∧ Reaches cutoff s (counts i) w := by
  obtain ⟨there, -⟩ := Array.getElem?_eq_some_iff.1 hw
  obtain ⟨s, w', hs, hw', reaches⟩ := h.exists_getElem? (h.size ▸ there)
  cases hw.symm.trans hw'
  exact ⟨s, hs, reaches⟩

/-- Systems keep their accounts from any later states on. -/
theorem Keep.after {accounts : Nat → Account α} (kept : Keep cutoff start accounts)
    (h : Reached cutoff start counts v) : Keep cutoff v accounts where
  size_le := h.size ▸ kept.size_le
  each i w hw := by
    obtain ⟨s, hs, reaches⟩ := h.exists_start hw
    exact (kept.each i s hs).after reaches

/-- Systems that answer go on to do so. -/
theorem Answering.after {accounts : Nat → Account α} (answering : Answering cutoff start accounts)
    (h : Reached cutoff start counts v) : Answering cutoff v accounts := by
  rintro ⟨i, round, q⟩ e there ⟨w, hw, ends⟩
  obtain ⟨s, hs, reaches⟩ := h.exists_start hw
  exact answering ⟨i, counts i + round, q⟩ e there ⟨s, hs, ends.after reaches⟩

/-- Calls that ask nothing about single atoms are answered. -/
theorem Answering.of_plain {accounts : Nat → Account α} (answering : Answering cutoff start accounts)
    {calls : Set SystemCall}
    (plain : ∀ i round atom, ⟨i, round, .pairsContaining atom⟩ ∉ calls) :
    ∀ call ∈ calls, ∀ e, ¬Ends cutoff start call (.error e) := by
  rintro ⟨i, round, q⟩ hcall e
  refine answering _ e ?_
  rintro atom rfl
  exact absurd hcall (plain i round atom)

/-- A system was given its neighbors once more. -/
theorem Reached.raise (h : Reached cutoff start counts v) {s w w' : σ} {trace trace' : Trace}
    (hs : start[i]? = some s) (before : Reaches cutoff s (counts i) w)
    (answered : AtomicSystem.computeNeighbors cutoff (w, trace) = .ok () (w', trace')) :
    Reached cutoff start (raise counts [i]) (v.setIfInBounds i w') where
  size := by simp [h.size]
  each j t u ht hu := by
    by_cases here : i = j
    · subst here
      cases hs.symm.trans ht
      rw [Array.getElem?_setIfInBounds_self] at hu
      split at hu
      · cases hu
        rw [raise_of_mem (List.mem_singleton_self i)]
        exact before.next answered
      · cases hu
    · rw [Array.getElem?_setIfInBounds_ne here] at hu
      rw [raise_of_not_mem (by simpa using Ne.symm here)]
      exact h.each j t u ht hu

/-- The numbers of the systems do not change. -/
theorem relies_numbers : Relies (Ends cutoff start) ∅ (Reached cutoff start counts) numbers
    (· = List.range start.size) (Reached cutoff start counts) := fun v hv =>
  ensures_value_bind (ensures_pure ⟨rests_ok (by rw [hv.size]), fun _ _ => hv⟩)

/-- A question to one system is a call to it. -/
theorem relies_ask {question : σ → Except Error β} {q : Question} {post : β → Prop}
    (there : i < start.size) (now : counts i = n)
    (h : ∀ s w, start[i]? = some s → Reaches cutoff s n w →
      q.Ends cutoff s n ((question w).map fun _ => ()) ∧ ∀ b, question w = .ok b → post b) :
    Relies (Ends cutoff start) {⟨i, n, q⟩} (Reached cutoff start counts) (ask i question) post
      (Reached cutoff start counts) := by
  subst now
  intro v hv
  obtain ⟨s, w, hs, hw, reaches⟩ := hv.exists_getElem? there
  obtain ⟨ends, right⟩ := h s w hs reaches
  refine ensures_systemsAsk ⟨?_, fun _ _ => hv⟩
  rw [elementAt_of_some hw]
  exact rests_call ⟨s, hs, ends⟩ right

variable {accounts : Nat → Account α} (kept : Keep cutoff start accounts) (there : i < start.size)

section Asking

include kept there

theorem relies_size (now : counts i = n) : Relies (Ends cutoff start) {⟨i, n, .size⟩}
    (Reached cutoff start counts) (ask i AtomicSystem.size) (· = (accounts i).size)
    (Reached cutoff start counts) :=
  relies_ask there now fun s _ hs at' => ⟨.size at', fun _ => (kept.each i s hs).size at'⟩

theorem relies_species (now : counts i = n) : Relies (Ends cutoff start) {⟨i, n, .species⟩}
    (Reached cutoff start counts) (ask i AtomicSystem.species) (· = (accounts i).species)
    (Reached cutoff start counts) :=
  relies_ask there now fun s _ hs at' => ⟨.species at', fun _ => (kept.each i s hs).species at'⟩

theorem relies_pairs (now : counts i = n + 1) : Relies (Ends cutoff start) {⟨i, n + 1, .pairs⟩}
    (Reached cutoff start counts) (ask i AtomicSystem.pairs) (· = (accounts i).pairs)
    (Reached cutoff start counts) :=
  relies_ask there now fun s _ hs at' => ⟨.pairs at', fun _ => (kept.each i s hs).pairs at'⟩

end Asking

include there in
/-- A system is asked for its neighbors. -/
theorem relies_computeNeighbors (now : counts i = n) :
    Relies (Ends cutoff start) {⟨i, n, .neighbors⟩} (Reached cutoff start counts)
      (computeNeighbors cutoff i) (fun _ => True) (Reached cutoff start (raise counts [i])) := by
  subst now
  intro v hv
  obtain ⟨s, w, hs, hw, reaches⟩ := hv.exists_getElem? there
  refine ensures_atIndex (fun w' hw' trace => ?_) fun missing => by cases hw.symm.trans missing
  cases hw.symm.trans hw'
  have ends : Ends cutoff start ⟨i, counts i, .neighbors⟩
      (ending (AtomicSystem.computeNeighbors cutoff (w, trace))).1 := ⟨s, hs, .neighbors reaches⟩
  cases answer : AtomicSystem.computeNeighbors cutoff (w, trace) with
  | ok b u =>
    rw [answer] at ends
    exact ⟨rests_call ends fun _ _ => trivial, fun _ _ => hv.raise hs reaches answer⟩
  | error e u =>
    rw [answer] at ends
    exact ⟨rests_call ends fun _ _ => trivial, nofun⟩

include there in
/-- A visit to a system: what is done after it was asked for its neighbors. -/
theorem relies_visit (now : counts i = n) {f : Unit → Traced (Systems σ) β}
    {questions : Set Question} {last : β → Prop}
    (h : ∀ counts, counts i = n + 1 → Relies (Ends cutoff start)
      (SystemCall.mk i (n + 1) '' questions) (Reached cutoff start counts) (f ()) last
      (Reached cutoff start counts)) :
    Relies (Ends cutoff start) (visit i n questions) (Reached cutoff start counts)
      (computeNeighbors cutoff i >>= f) last (Reached cutoff start (raise counts [i])) :=
  relies_bind (relies_computeNeighbors there now) fun _ _ =>
    h _ (now ▸ raise_of_mem (List.mem_singleton_self i))

theorem raise_singleton_of_mem {numbers : List Nat} {j : Nat} (distinct : i ∉ numbers)
    (hj : j ∈ numbers) : raise counts [i] j = counts j := by
  refine raise_of_not_mem ?_
  rw [List.mem_singleton]
  exact fun here => distinct (here ▸ hj)

/-- Different systems are visited one after the other. -/
theorem relies_mapM_visits {f : Nat → Traced (Systems σ) β} {of : Nat → Set SystemCall}
    {r : Nat → β → Prop} : ∀ {numbers : List Nat} {counts : Nat → Nat}, numbers.Nodup →
      (∀ i ∈ numbers, counts i = n) →
      (∀ i ∈ numbers, ∀ counts, counts i = n → Relies (Ends cutoff start) (of i)
        (Reached cutoff start counts) (f i) (r i) (Reached cutoff start (raise counts [i]))) →
      Relies (Ends cutoff start) (⋃ i ∈ numbers, of i) (Reached cutoff start counts)
        (numbers.mapM f) (List.Forall₂ r numbers) (Reached cutoff start (raise counts numbers))
  | [], counts, _, _, _ => (relies_pure .nil).congr (by simp)
  | i :: numbers, counts, distinct, now, h => by
    rw [List.forall_mem_cons] at now h
    rw [List.nodup_cons] at distinct
    rw [List.mapM_cons, biUnion_cons, ← raise_cons distinct.1]
    refine relies_bind (h.1 counts now.1) fun b hb => ?_
    have rest : ∀ j ∈ numbers, raise counts [i] j = n := fun j hj =>
      (raise_singleton_of_mem distinct.1 hj).trans (now.2 j hj)
    exact relies_map (relies_mapM_visits distinct.2 rest h.2) fun bs hbs => .cons hb hbs

/-- Different systems are asked for their neighbors, and nothing else. -/
theorem relies_forM_computeNeighbors : ∀ {numbers : List Nat} {counts : Nat → Nat},
    numbers.Nodup → (∀ i ∈ numbers, i < start.size) → (∀ i ∈ numbers, counts i = n) →
      Relies (Ends cutoff start) (⋃ i ∈ numbers, {⟨i, n, .neighbors⟩})
        (Reached cutoff start counts) (numbers.forM (computeNeighbors cutoff)) (fun _ => True)
        (Reached cutoff start (raise counts numbers))
  | [], counts, _, _, _ => (relies_pure trivial).congr (by simp)
  | i :: numbers, counts, distinct, there, now => by
    rw [List.forall_mem_cons] at there now
    rw [List.nodup_cons] at distinct
    rw [List.forM_eq_forM, List.forM_cons, biUnion_cons, ← raise_cons distinct.1]
    refine relies_bind (relies_computeNeighbors there.1 now.1) fun _ _ => ?_
    exact relies_forM_computeNeighbors distinct.2 there.2 fun j hj =>
      (raise_singleton_of_mem distinct.1 hj).trans (now.2 j hj)

end Systems

/-! ### Recorded systems -/

namespace RecordedSystem

/-- The records agree with each other. -/
structure Sound (s : RecordedSystem α) : Prop where
  size_le : s.size ≤ maxLabel
  size_species : s.species.size = s.size
  size_positions : s.positions.size = s.size
  size_pairsContaining : s.pairsContaining.size = s.size
  species_le : ∀ a ∈ s.species, a ≤ (maxLabel : Int)
  pairs_lt : ∀ p ∈ s.pairs, p.first < s.size ∧ p.second < s.size
  pairsContaining_lt : ∀ ps ∈ s.pairsContaining, ∀ p ∈ ps, p.first < s.size ∧ p.second < s.size

/-- The account that the records are. -/
def account (s : RecordedSystem α) (sound : s.Sound) : Account α where
  size := s.size
  species := s.species
  positions := s.positions
  pairs := s.pairs
  pairsContaining atom := s.pairsContaining.getD atom []
  size_le := sound.size_le
  size_species := sound.size_species
  size_positions := sound.size_positions
  species_le := sound.species_le
  pairs_lt := sound.pairs_lt
  pairsContaining_lt atom there := by
    have within : atom < s.pairsContaining.size := sound.size_pairsContaining ▸ there
    rw [Array.getD_eq_getD_getElem?, Array.getElem?_eq_getElem within]
    exact sound.pairsContaining_lt _ (Array.getElem_mem within)

/-- Being asked for its neighbors adds to the cutoffs that a recorded system remembers. -/
theorem eq_of_reaches {cutoff : α} {s v : RecordedSystem α} {n : Nat}
    (h : Reaches cutoff s n v) : ∃ cutoffs, v = { s with cutoffs := cutoffs } := by
  induction h with
  | start => exact ⟨s.cutoffs, rfl⟩
  | @next n v w trace trace' before answered ih =>
    obtain ⟨cutoffs, rfl⟩ := ih
    refine ⟨cutoffs.push cutoff, ?_⟩
    change ofExcept _ _ = _ at answered
    rw [ofExcept_apply] at answered
    split at answered
    · cases answered
      rfl
    · cases answered

theorem of_reply_eq_ok {s : RecordedSystem α} {request : Request} {b b' : β}
    (h : s.reply request b = .ok b') : b' = b := by
  rw [reply] at h
  split at h
  · cases h
  · cases h
    rfl

/-- Recorded systems keep their accounts, whatever they refuse. -/
theorem keptBy_account {s : RecordedSystem α} (sound : s.Sound) (cutoff : α) :
    (s.account sound).KeptBy cutoff s where
  size now h := by
    obtain ⟨cutoffs, rfl⟩ := eq_of_reaches now
    exact of_reply_eq_ok h
  species now h := by
    obtain ⟨cutoffs, rfl⟩ := eq_of_reaches now
    exact of_reply_eq_ok h
  positions now h := by
    obtain ⟨cutoffs, rfl⟩ := eq_of_reaches now
    exact of_reply_eq_ok h
  pairs now h := by
    obtain ⟨cutoffs, rfl⟩ := eq_of_reaches now
    exact of_reply_eq_ok h
  pairsContaining {n v atom pairs} now there h := by
    obtain ⟨cutoffs, rfl⟩ := eq_of_reaches now
    obtain ⟨_, -, h⟩ := except_bind_eq_ok.1 h
    dsimp only at h
    change pairs = s.pairsContaining.getD atom []
    rw [Array.getD_eq_getD_getElem?]
    split at h
    · next found =>
      cases h
      rw [found]
      rfl
    · cases h

theorem reply_of_refused_nil {s : RecordedSystem α} (willing : s.refused = []) (request : Request)
    (b : β) : s.reply request b = .ok b := by
  rw [reply, willing]
  rfl

theorem map_reply (s : RecordedSystem α) (request : Request) (b : β) :
    (s.reply request b).map (fun _ => ()) = s.reply request () := by
  rw [reply, reply]
  split <;> rfl

/-- Calls that make sense to a recorded system end as its replies. -/
theorem eq_reply_of_ends {s : RecordedSystem α} (sound : s.Sound) {cutoff : α} {n : Nat}
    {q : Question} {r : Except Error Unit} (there : ∀ atom, q = .pairsContaining atom → atom < s.size)
    (h : q.Ends cutoff s n r) : r = s.reply q.request () := by
  cases h with
  | size now =>
    obtain ⟨cutoffs, rfl⟩ := eq_of_reaches now
    exact map_reply s .size s.size
  | species now =>
    obtain ⟨cutoffs, rfl⟩ := eq_of_reaches now
    exact map_reply s .species s.species
  | positions now =>
    obtain ⟨cutoffs, rfl⟩ := eq_of_reaches now
    exact map_reply s .positions s.positions
  | pairs now =>
    obtain ⟨cutoffs, rfl⟩ := eq_of_reaches now
    exact map_reply s .pairs s.pairs
  | neighbors now =>
    obtain ⟨cutoffs, rfl⟩ := eq_of_reaches now
    change (ending (ofExcept (s.reply .computeNeighbors ()) _)).1 = s.reply .computeNeighbors ()
    cases s.reply .computeNeighbors () <;> rfl
  | @pairsContaining _ v atom now =>
    obtain ⟨cutoffs, rfl⟩ := eq_of_reaches now
    have among : s.pairsContaining[atom]? = some _ := Array.getElem?_eq_getElem
      (sound.size_pairsContaining ▸ there atom rfl)
    change (s.reply .pairsContaining () >>= fun _ => _).map _ = s.reply .pairsContaining ()
    cases s.reply .pairsContaining () with
    | error e => rfl
    | ok _ =>
      dsimp only [bind, Except.bind]
      rw [among]
      rfl

end RecordedSystem

namespace Systems

variable {s : RecordedSystem α}

/-- A recorded system keeps the contract. -/
theorem keep_recorded (sound : s.Sound) (cutoff : α) :
    Keep cutoff #[s] fun _ => s.account sound where
  size_le := (by decide : 1 ≤ maxLabel)
  each i t ht := by
    cases Array.mem_singleton.1 (Array.mem_of_getElem? ht)
    exact RecordedSystem.keptBy_account sound cutoff

/-- If it refuses nothing, it answers. -/
theorem answering_recorded (sound : s.Sound) (willing : s.refused = []) (cutoff : α) :
    Answering cutoff #[s] fun _ => s.account sound := by
  rintro call e there ⟨t, ht, ends⟩
  cases Array.mem_singleton.1 (Array.mem_of_getElem? ht)
  have replied := RecordedSystem.eq_reply_of_ends sound there ends
  rw [RecordedSystem.reply_of_refused_nil willing] at replied
  cases replied

end Systems

end Atomistic
