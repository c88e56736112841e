import Atomistic.Proofs.LabelTables
import Atomistic.Proofs.Traced
import Mathlib.Data.Set.Lattice

/-!
# Computations that rely on calls

A library asks questions of objects that others have written. Each such call may fail, and the most
that can be said of the library is that nothing else goes wrong: it gives a right answer, and then
all of its calls were answered, or it hands on the error of one of them. `Rests` says this of the
end of a computation, `Relies` of a computation over a state. How calls may end is left open, as a
relation between calls and ends; which calls are made is found together with the rest, by one rule
for each way in which computations are put together.
-/

namespace Atomistic

variable {s κ ι β γ : Type}

/-- The end of a computation that makes some calls: a right answer when all of them were answered, or
the error of one of them. -/
inductive Rests (ends : κ → Except Error Unit → Prop) (calls : Set κ) (post : β → Prop) :
    Except Error β → Prop where
  | answer {b : β} (right : post b) (answered : ∀ k ∈ calls, ends k (.ok ())) :
    Rests ends calls post (.ok b)
  | failure {k : κ} {e : Error} (made : k ∈ calls) (failed : ends k (.error e)) :
    Rests ends calls post (.error e)

section Ends

variable {ends : κ → Except Error Unit → Prop} {calls more : Set κ} {post : β → Prop}
  {last : γ → Prop} {x : Except Error β}

theorem rests_ok {b : β} (h : post b) : Rests ends ∅ post (.ok b) := .answer h nofun

/-- A call ends as it may end. -/
theorem rests_call {k : κ} (h : ends k (x.map fun _ => ())) (right : ∀ b, x = .ok b → post b) :
    Rests ends {k} post x := by
  cases x with
  | ok b =>
    refine .answer (right b rfl) ?_
    rintro _ rfl
    exact h
  | error e => exact .failure rfl h

theorem Rests.imp {post' : β → Prop} (h : Rests ends calls post x) (imp : ∀ b, post b → post' b) :
    Rests ends calls post' x := by
  cases h with
  | answer right answered => exact .answer (imp _ right) answered
  | failure made failed => exact .failure made failed

/-- Where all calls are answered, so is the question that they are made for. -/
theorem Rests.exists_ok (h : Rests ends calls post x)
    (answering : ∀ k ∈ calls, ∀ e, ¬ends k (.error e)) : ∃ b, x = .ok b ∧ post b := by
  cases h with
  | answer right answered => exact ⟨_, rfl, right⟩
  | failure made failed => exact absurd failed (answering _ made _)

/-- Calls that were answered before take nothing away from the rest. -/
theorem Rests.after {y : Except Error γ} (answered : ∀ k ∈ calls, ends k (.ok ()))
    (rest : Rests ends more last y) : Rests ends (calls ∪ more) last y := by
  cases rest with
  | answer right answered' => exact .answer right fun k hk => hk.elim (answered k) (answered' k)
  | failure made failed => exact .failure (.inr made) failed

theorem rests_bind {f : β → Except Error γ} (h : Rests ends calls post x)
    (hf : ∀ b, post b → Rests ends more last (f b)) : Rests ends (calls ∪ more) last (x >>= f) := by
  cases h with
  | answer right answered => exact .after answered (hf _ right)
  | failure made failed => exact .failure (.inl made) failed

/-- A rest that makes no calls adds none. -/
theorem rests_bind_free {f : β → Except Error γ} (h : Rests ends calls post x)
    (hf : ∀ b, post b → Rests ends ∅ last (f b)) : Rests ends calls last (x >>= f) :=
  Set.union_empty calls ▸ rests_bind h hf

theorem rests_of_ok_bind {f : β → Except Error γ} {b : β} (hx : x = .ok b)
    (h : Rests ends calls last (f b)) : Rests ends calls last (x >>= f) := by
  subst hx
  exact h

theorem biUnion_cons {i : ι} {items : List ι} {of : ι → Set κ} :
    ⋃ j ∈ i :: items, of j = of i ∪ ⋃ j ∈ items, of j := by
  ext k
  simp

theorem rests_mapM {f : ι → Except Error β} {of : ι → Set κ} {r : ι → β → Prop} :
    ∀ {items : List ι}, (∀ i ∈ items, Rests ends (of i) (r i) (f i)) →
      Rests ends (⋃ i ∈ items, of i) (List.Forall₂ r items) (items.mapM f)
  | [], _ => .answer .nil (by simp)
  | i :: items, h => by
    rw [List.forall_mem_cons] at h
    rw [List.mapM_cons, biUnion_cons]
    refine rests_bind h.1 fun b hb => ?_
    exact rests_bind_free (rests_mapM h.2) fun bs hbs => rests_ok (.cons hb hbs)

end Ends

/-- Where each element has one right answer, so has the list. -/
theorem eq_map_of_forall₂ {g : ι → β} {items : List ι} {answers : List β}
    (h : List.Forall₂ (fun i b => b = g i) items answers) : answers = items.map g := by
  have flipped : List.Forall₂ (fun b i => b = g i) answers items := h.flip
  exact List.forall₂_eq_eq_eq ▸ List.forall₂_map_right_iff.2 flipped

namespace Traced

/-- From the states that `p` allows, the computation ends as some calls let it, and if it has an
answer, in a state that `q` allows. -/
def Relies (ends : κ → Except Error Unit → Prop) (calls : Set κ) (p : s → Prop) (m : Traced s β)
    (post : β → Prop) (q : s → Prop) : Prop :=
  ∀ v, p v → Ensures m v fun r w => Rests ends calls post r ∧ ∀ b, r = .ok b → q w

variable {ends : κ → Except Error Unit → Prop} {calls more : Set κ} {p q r : s → Prop}
  {m : Traced s β} {f : β → Traced s γ} {post : β → Prop} {last : γ → Prop}

theorem Relies.weaken {p' q' : s → Prop} {post' : β → Prop} (h : Relies ends calls p m post q)
    (hp : ∀ v, p' v → p v) (hpost : ∀ b, post b → post' b) (hq : ∀ v, q v → q' v) :
    Relies ends calls p' m post' q' := fun v hv =>
  ensures_mono (h v (hp v hv)) fun _ w hw => ⟨hw.1.imp hpost, fun b ok => hq w (hw.2 b ok)⟩

/-- The same calls, written in another way. -/
theorem Relies.congr (h : Relies ends calls p m post q) (same : calls = more) :
    Relies ends more p m post q := same ▸ h

/-- Where all calls are answered, there is a right answer. -/
theorem Relies.ensures_ok {v : s} (h : Relies ends calls p m post q) (hv : p v)
    (answering : ∀ k ∈ calls, ∀ e, ¬ends k (.error e)) :
    Ensures m v fun r w => ∃ b, r = .ok b ∧ post b ∧ q w :=
  ensures_mono (h v hv) fun _ _ hw =>
    let ⟨b, answer, right⟩ := hw.1.exists_ok answering
    ⟨b, answer, right, hw.2 b answer⟩

theorem relies_pure {b : β} (h : post b) : Relies ends ∅ p (pure b) post p := fun _ hv =>
  ensures_pure ⟨rests_ok h, fun _ _ => hv⟩

theorem relies_ofExcept {x : Except Error β} {b : β} (hx : x = .ok b) (h : post b) :
    Relies ends ∅ p (ofExcept x) post p := by
  subst hx
  exact relies_pure h

theorem relies_bind (hm : Relies ends calls p m post q)
    (hf : ∀ b, post b → Relies ends more q (f b) last r) :
    Relies ends (calls ∪ more) p (m >>= f) last r := by
  intro v hv
  refine ensures_bind (ensures_mono (hm v hv) ?_)
  rintro (e | b) w ⟨first, hw⟩
  · cases first with
    | failure made failed => exact ⟨.failure (.inl made) failed, nofun⟩
  · cases first with
    | answer right answered =>
      dsimp only [andThen]
      exact ensures_mono (hf b right w (hw b rfl)) fun _ _ rest => ⟨.after answered rest.1, rest.2⟩

/-- A part that is known to have an answer makes no calls. -/
theorem relies_of_ok_bind {x : Except Error β} {b : β} (hx : x = .ok b)
    (h : Relies ends calls p (f b) last q) : Relies ends calls p (ofExcept x >>= f) last q := by
  subst hx
  exact h

/-- A rest that makes no calls adds none. -/
theorem relies_bind_free (hm : Relies ends calls p m post q)
    (hf : ∀ b, post b → Relies ends ∅ q (f b) last r) : Relies ends calls p (m >>= f) last r :=
  (relies_bind hm hf).congr (Set.union_empty calls)

theorem relies_map {g : β → γ} (hm : Relies ends calls p m post q)
    (h : ∀ b, post b → last (g b)) : Relies ends calls p (do return g (← m)) last q :=
  relies_bind_free hm fun b hb => relies_pure (h b hb)

theorem relies_value_bind {f : s → Traced s γ} (h : ∀ v, Relies ends calls p (f v) last q) :
    Relies ends calls p (value >>= f) last q := fun v hv => ensures_value_bind (h v v hv)

theorem relies_log_bind {level : Level} {origin : Origin} {text : String} {f : Unit → Traced s γ}
    (h : Relies ends calls p (f ()) last q) :
    Relies ends calls p (log level origin text >>= f) last q :=
  fun v hv => ensures_log_bind (h v hv)

theorem relies_within {span : Span} (h : Relies ends calls p m post q) :
    Relies ends calls p (within span m) post q := fun v hv => ensures_within (h v hv)

/-- A question about the state as a whole leaves it as it is. -/
theorem relies_ask {question : s → Except Error β}
    (h : ∀ v, p v → Rests ends calls post (question v)) :
    Relies ends calls p (ask question) post p := fun v hv =>
  ensures_ask ⟨h v hv, fun _ _ => hv⟩

/-- The calls for a list are those for its elements. -/
theorem relies_mapM {f : ι → Traced s β} {of : ι → Set κ} {rel : ι → β → Prop} :
    ∀ {items : List ι}, (∀ i ∈ items, Relies ends (of i) p (f i) (rel i) p) →
      Relies ends (⋃ i ∈ items, of i) p (items.mapM f) (List.Forall₂ rel items) p
  | [], _ => (relies_pure .nil).congr (by simp)
  | i :: items, h => by
    rw [List.forall_mem_cons] at h
    rw [List.mapM_cons, biUnion_cons]
    refine relies_bind h.1 fun b hb => ?_
    exact relies_map (relies_mapM h.2) fun bs hbs => .cons hb hbs

end Traced

end Atomistic
