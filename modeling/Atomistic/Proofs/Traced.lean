import Atomistic.Trace
import Mathlib.Data.List.Forall2

/-!
# What computations ensure

A computation ends with an answer or an error, and in some state; its trace is left aside here.
`Ensures m v post` says that `post` holds of every end of `m` from the state `v`, failures included.
There is one rule for each way in which computations are put together, and proofs follow the text of
a computation by applying them. `Answers m p` is the part of this that only looks at answers, for
computations whose effect on the state does not matter, and `Settles p m x q` says that the answer
is `x` whatever the state is, as long as it is one of some states. Where the trace matters too, a
computation is followed step by step instead, through one equation for each combinator.
-/

namespace Atomistic.Traced

variable {s t β γ : Type}

/-- How a computation ended, and the state that it left. -/
def ending : EStateM.Result Error (s × Trace) β → Except Error β × s
  | .ok b (v, _) => (.ok b, v)
  | .error e (v, _) => (.error e, v)

/-- From the state `v`, and after any trace, the computation ends as `post` says. -/
def Ensures (m : Traced s β) (v : s) (post : Except Error β → s → Prop) : Prop :=
  ∀ trace, post (ending (m (v, trace))).1 (ending (m (v, trace))).2

/-- What an end of a first part leaves to be ensured of the rest. -/
def andThen (f : β → Traced s γ) (post : Except Error γ → s → Prop) : Except Error β → s → Prop
  | .ok b, v => Ensures (f b) v post
  | .error e, v => post (.error e) v

/-- What is ensured of a computation holds of its outcome. -/
theorem Ensures.outcome {m : Traced s β} {v : s} {post : Except Error β → s → Prop}
    (h : Ensures m v post) : post (m.outcome v).1 (m.outcome v).2.1 := by
  have here := h #[]
  rw [Traced.outcome]
  cases hm : m (v, #[]) <;> rw [hm] at here <;> exact here

/-! ### Steps -/

section Steps

variable (v : s) (trace : Trace)

theorem bind_apply (m : Traced s β) (f : β → Traced s γ) (w : s × Trace) :
    (m >>= f) w = match m w with
      | .ok b w => f b w
      | .error e w => .error e w := by
  change EStateM.bind m f w = _
  rw [EStateM.bind]
  cases m w <;> rfl

theorem ofExcept_apply (x : Except Error β) (w : s × Trace) :
    ofExcept x w = match x with
      | .ok b => .ok b w
      | .error e => .error e w := by
  cases x <;> rfl

theorem pure_apply (b : β) (w : s × Trace) : (pure b : Traced s β) w = .ok b w := rfl

theorem value_apply : value (v, trace) = .ok v (v, trace) := rfl

theorem log_apply (level : Level) (origin : Origin) (text : String) :
    log level origin text (v, trace)
      = .ok () (v, trace.push (.records [[⟨level, origin, text⟩]])) := rfl

end Steps

/-! ### Rules -/

section Rules

variable {m : Traced s β} {f : β → Traced s γ} {v : s}
  {post weaker : Except Error β → s → Prop} {last : Except Error γ → s → Prop}

theorem ensures_mono (h : Ensures m v post) (imp : ∀ r w, post r w → weaker r w) :
    Ensures m v weaker := fun trace => imp _ _ (h trace)

theorem Ensures.and (h : Ensures m v post) (h' : Ensures m v weaker) :
    Ensures m v fun r w => post r w ∧ weaker r w := fun trace => ⟨h trace, h' trace⟩

theorem ensures_pure {b : β} (h : post (.ok b) v) : Ensures (pure b) v post := fun _ => h

theorem ensures_throw {e : Error} (h : post (.error e) v) : Ensures (throw e) v post := fun _ => h

theorem ensures_bind (h : Ensures m v (andThen f last)) : Ensures (m >>= f) v last := by
  intro trace
  have first := h trace
  change last (ending (EStateM.bind m f (v, trace))).1 (ending (EStateM.bind m f (v, trace))).2
  rw [EStateM.bind]
  cases hm : m (v, trace) with
  | ok b w =>
    rw [hm] at first
    exact first w.2
  | error e w =>
    rw [hm] at first
    exact first

theorem ensures_value_bind {f : s → Traced s γ} (h : Ensures (f v) v last) :
    Ensures (value >>= f) v last := fun trace => h trace

theorem ensures_setValue {w : s} {post : Except Error Unit → s → Prop} (h : post (.ok ()) w) :
    Ensures (setValue w) v post := fun _ => h

theorem ensures_setValue_bind {w : s} {f : Unit → Traced s γ} (h : Ensures (f ()) w last) :
    Ensures (setValue w >>= f) v last := fun trace => h trace

theorem ensures_log_bind {level : Level} {origin : Origin} {text : String} {f : Unit → Traced s γ}
    (h : Ensures (f ()) v last) : Ensures (log level origin text >>= f) v last :=
  fun trace => h (trace.push (.records [[⟨level, origin, text⟩]]))

theorem ensures_logGroups_bind {level : Level} {origin : Origin} {groups : List (List String)}
    {f : Unit → Traced s γ} (h : Ensures (f ()) v last) :
    Ensures (logGroups level origin groups >>= f) v last :=
  fun trace => h (trace.push _)

theorem ensures_replay_bind {t : Trace} {f : Unit → Traced s γ} (h : Ensures (f ()) v last) :
    Ensures (replay t >>= f) v last := fun trace => h (trace ++ t)

theorem ensures_ofExcept {x : Except Error β} (h : post x v) : Ensures (ofExcept x) v post := by
  cases x with
  | ok b => exact ensures_pure h
  | error e => exact ensures_throw h

theorem ensures_ofExcept_bind {x : Except Error β}
    (ok : ∀ b, x = .ok b → Ensures (f b) v last) (error : ∀ e, x = .error e → last (.error e) v) :
    Ensures (ofExcept x >>= f) v last := by
  refine ensures_bind (ensures_ofExcept ?_)
  cases hx : x with
  | ok b => exact ok b hx
  | error e => exact error e hx

/-- A part that is known to have an answer leaves the rest to be followed. -/
theorem ensures_of_ok_bind {x : Except Error β} {b : β} (hx : x = .ok b)
    (h : Ensures (f b) v last) : Ensures (ofExcept x >>= f) v last := by
  subst hx
  exact h

theorem ensures_within {span : Span} (h : Ensures m v post) : Ensures (within span m) v post := by
  intro trace
  have inner := h (trace.push (.enter span))
  rw [within]
  cases hm : m (v, trace.push (.enter span)) <;> rw [hm] at inner <;> exact inner

theorem ensures_focus {part : s → t} {replace : s → t → s} {n : Traced t β}
    (h : Ensures n (part v) fun r p => post r (replace v p)) :
    Ensures (focus part replace n) v post := by
  intro trace
  have inner := h trace
  rw [focus]
  cases hn : n (part v, trace) <;> rw [hn] at inner <;> exact inner

/-- Replacing an element by itself changes nothing. -/
theorem setIfInBounds_self {v : Array t} {i : Nat} {e : t} (there : v[i]? = some e) :
    v.setIfInBounds i e = v := by
  obtain ⟨hi, rfl⟩ := Array.getElem?_eq_some_iff.1 there
  rw [Array.setIfInBounds, dif_pos hi, Array.set_getElem_self]

/-- Work with one element of an array replaces it, also if it fails. -/
theorem ensures_atIndex {i : Nat} {v : Array t} {n : Traced t β}
    {post : Except Error β → Array t → Prop}
    (there : ∀ e, v[i]? = some e → Ensures n e fun r e' => post r (v.setIfInBounds i e'))
    (missing : v[i]? = none → post (.error (.panic .unspecified)) v) :
    Ensures (atIndex i n) v post := by
  intro trace
  rw [atIndex]
  split
  · next h =>
    have inner := there v[i] (Array.getElem?_eq_getElem h) trace
    cases hn : n (v[i], trace) <;> rw [hn] at inner <;>
      simpa [ending, Array.setIfInBounds, h] using inner
  · next h => exact missing (Array.getElem?_eq_none (by omega))

/-- A first part that uses no state matters by its answer only. -/
theorem ensures_stateless_bind {n : Traced Unit β}
    (h : Ensures n () fun r _ => andThen f last r v) : Ensures (stateless n >>= f) v last :=
  ensures_bind (ensures_focus h)

theorem ensures_ask {question : s → Except Error β} (h : post (question v) v) :
    Ensures (ask question) v post :=
  ensures_value_bind (ensures_ofExcept h)

end Rules

/-! ### Answers -/

/-- Every answer of the computation is as `p` says. -/
def Answers (m : Traced s β) (p : β → Prop) : Prop :=
  ∀ v, Ensures m v fun r _ => ∀ b, r = .ok b → p b

section Answers

variable {m : Traced s β} {f : β → Traced s γ} {p : β → Prop} {q : γ → Prop}

theorem answers_trivial (m : Traced s β) : Answers m fun _ => True := fun _ _ _ _ => trivial

theorem Answers.imp {q : β → Prop} (h : Answers m p) (imp : ∀ b, p b → q b) : Answers m q :=
  fun v trace b hb => imp b (h v trace b hb)

theorem Answers.and {q : β → Prop} (h : Answers m p) (h' : Answers m q) :
    Answers m fun b => p b ∧ q b := fun v trace b hb => ⟨h v trace b hb, h' v trace b hb⟩

theorem answers_pure {b : β} (h : p b) : Answers (pure b : Traced s β) p := by
  rintro v trace _ ⟨⟩
  exact h

theorem answers_throw (e : Error) : Answers (throw e : Traced s β) p := by
  rintro v trace _ ⟨⟩

theorem answers_ofExcept {x : Except Error β} (h : ∀ b, x = .ok b → p b) :
    Answers (ofExcept x : Traced s β) p := fun _ => ensures_ofExcept h

theorem answers_bind (hm : Answers m p) (hf : ∀ b, p b → Answers (f b) q) :
    Answers (m >>= f) q := by
  intro v
  refine ensures_bind (ensures_mono (hm v) ?_)
  intro r w hr
  cases r with
  | ok b => exact hf b (hr b rfl) w
  | error e => rintro _ ⟨⟩

/-- The answers of the rest of a computation, whatever its first part answers. -/
theorem answers_after (hf : ∀ b, Answers (f b) q) : Answers (m >>= f) q :=
  answers_bind (answers_trivial m) fun b _ => hf b

/-- Asking for each element of a list in turn gives one answer for each of them. -/
theorem answers_mapM {ι : Type} {g : ι → Traced s β} {r : ι → β → Prop} :
    ∀ {items : List ι}, (∀ i ∈ items, Answers (g i) (r i)) →
      Answers (items.mapM g) (List.Forall₂ r items)
  | [], _ => answers_pure .nil
  | i :: items, h => by
    rw [List.mapM_cons]
    refine answers_bind (h i List.mem_cons_self) fun b hb => ?_
    refine answers_bind (answers_mapM fun j hj => h j (List.mem_cons_of_mem _ hj)) fun bs hbs => ?_
    exact answers_pure (.cons hb hbs)

end Answers

/-! ### Settled answers -/

/-- From all states that `p` allows the computation ends with `x`, and if it does not fail in a
state that `q` allows. -/
def Settles (p : s → Prop) (m : Traced s β) (x : Except Error β) (q : s → Prop) : Prop :=
  ∀ v, p v → Ensures m v fun r w => r = x ∧ ∀ b, x = .ok b → q w

section Settled

variable {p q r : s → Prop} {m : Traced s β} {f : β → Traced s γ} {x : Except Error β}
  {g : β → Except Error γ}

theorem Settles.ends {v : s} (h : Settles p m x q) (hv : p v) (trace : Trace) :
    (∃ b w, m (v, trace) = .ok b w ∧ x = .ok b ∧ q w.1) ∨
      ∃ e w, m (v, trace) = .error e w ∧ x = .error e := by
  obtain ⟨answer, allowed⟩ := h v hv trace
  cases hm : m (v, trace) with
  | ok b w =>
    rw [hm] at answer allowed
    exact .inl ⟨b, w, rfl, answer.symm, allowed b answer.symm⟩
  | error e w =>
    rw [hm] at answer
    exact .inr ⟨e, w, rfl, answer.symm⟩

theorem Settles.weaken {p' q' : s → Prop} (h : Settles p m x q) (hp : ∀ v, p' v → p v)
    (hq : ∀ v, q v → q' v) : Settles p' m x q' := fun v hv =>
  ensures_mono (h v (hp v hv)) fun _ w hw => ⟨hw.1, fun b ok => hq w (hw.2 b ok)⟩

theorem settles_pure (b : β) : Settles p (pure b) (.ok b) p := fun _ hv =>
  ensures_pure ⟨rfl, fun _ _ => hv⟩

theorem settles_throw (e : Error) : Settles p (throw e : Traced s β) (.error e) q := fun _ _ =>
  ensures_throw ⟨rfl, nofun⟩

theorem settles_ofExcept (x : Except Error β) : Settles p (ofExcept x) x p := fun _ hv =>
  ensures_ofExcept ⟨rfl, fun _ _ => hv⟩

theorem settles_bind (hm : Settles p m x q) (hf : ∀ b, x = .ok b → Settles q (f b) (g b) r) :
    Settles p (m >>= f) (x >>= g) r := by
  intro v hv
  refine ensures_bind (ensures_mono (hm v hv) ?_)
  rintro answer w ⟨rfl, hw⟩
  cases answer with
  | error e => exact ⟨rfl, nofun⟩
  | ok b => exact hf b rfl w (hw b rfl)

/-- A first part that has an answer leaves the rest to be followed. -/
theorem settles_ok_bind {b : β} {y : Except Error γ} (hm : Settles p m (.ok b) q)
    (hf : Settles q (f b) y r) : Settles p (m >>= f) y r :=
  settles_bind (g := fun _ => y) hm fun _ answer => Except.ok.inj answer ▸ hf

theorem settles_ite {c : Prop} [Decidable c] {m' : Traced s β} {x' : Except Error β}
    (h : c → Settles p m x q) (h' : ¬c → Settles p m' x' q) :
    Settles p (if c then m else m') (if c then x else x') q := by
  split
  · next yes => exact h yes
  · next no => exact h' no

/-- Records make no difference. -/
theorem settles_log_bind {level : Level} {origin : Origin} {text : String}
    {f : Unit → Traced s β} (h : Settles p (f ()) x q) :
    Settles p (log level origin text >>= f) x q :=
  have log : Settles p (log level origin text) (.ok ()) p := fun _ hv _ => ⟨rfl, fun _ _ => hv⟩
  settles_bind (g := fun _ => x) log fun _ _ => h

theorem settles_within {span : Span} (h : Settles p m x q) : Settles p (within span m) x q :=
  fun v hv => ensures_within (h v hv)

/-- One after the other, computations that settle in the states that they started from settle. -/
theorem settles_mapM {ι : Type} {f : ι → Traced s β} {g : ι → Except Error β}
    (h : ∀ i, Settles p (f i) (g i) p) : ∀ items : List ι,
      Settles p (items.mapM f) (items.mapM g) p
  | [] => settles_pure []
  | i :: items => by
    rw [List.mapM_cons, List.mapM_cons]
    refine settles_bind (h i) fun b _ => ?_
    exact settles_bind (settles_mapM h items) fun bs _ => settles_pure (b :: bs)

end Settled

end Atomistic.Traced
