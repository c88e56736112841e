import Atomistic.Proofs.KeptRelations
import Atomistic.Proofs.Simulation

/-!
# Computations in tandem

Two computations go on in tandem as long as their answers are related in some way, which is not always
that they are the same: lists may have another order, maps may hold lists of another order. What they
do with these answers leads to the same in the end. A failure of one of them is a failure of the other
one, with the same error. There is one rule for each way in which computations are put together.
-/

namespace Atomistic

variable {β γ ι : Type} {post : β → β → Prop} {last : γ → γ → Prop}

/-! ### Answers -/

/-- Both have answers, which are related, or both have the same error. -/
inductive Parallel (post : β → β → Prop) : Except Error β → Except Error β → Prop where
  | answers {b c : β} (h : post b c) : Parallel post (.ok b) (.ok c)
  | fails (e : Error) : Parallel post (.error e) (.error e)

namespace Parallel

variable {x y : Except Error β}

theorem refl (x : Except Error β) : Parallel Eq x x := by
  cases x with
  | ok b => exact .answers rfl
  | error e => exact .fails e

theorem imp {weaker : β → β → Prop} (h : Parallel post x y)
    (imp : ∀ b c, post b c → weaker b c) : Parallel weaker x y := by
  cases h with
  | answers h => exact .answers (imp _ _ h)
  | fails e => exact .fails e

theorem bind {f g : β → Except Error γ} (h : Parallel post x y)
    (rest : ∀ b c, post b c → Parallel last (f b) (g c)) : Parallel last (x >>= f) (y >>= g) := by
  cases h with
  | answers h => exact rest _ _ h
  | fails e => exact .fails e

theorem trans {z : Except Error β} (transitive : ∀ {a b c}, post a b → post b c → post a c)
    (h : Parallel post x y) (h' : Parallel post y z) : Parallel post x z := by
  cases h with
  | answers h =>
    cases h' with
    | answers h' => exact .answers (transitive h h')
  | fails e => exact h'

theorem mapM {rel : ι → ι → Prop} {f : ι → Except Error β} {xs ys : List ι}
    (h : List.Forall₂ rel xs ys) (each : ∀ i j, rel i j → Parallel post (f i) (f j)) :
    Parallel (List.Forall₂ post) (xs.mapM f) (ys.mapM f) := by
  induction h with
  | nil => exact .answers .nil
  | cons here _ ih =>
    rw [List.mapM_cons, List.mapM_cons]
    refine (each _ _ here).bind fun b c first => ih.bind fun bs cs others => ?_
    exact .answers (.cons first others)

/-- The order of a list makes no difference to the errors of its elements, if these are all the
same. -/
theorem mapM_perm {f : ι → Except Error β} {fault : Error}
    (only : ∀ i e, f i = .error e → e = fault) {xs ys : List ι} (h : xs.Perm ys) :
    Parallel List.Perm (xs.mapM f) (ys.mapM f) := by
  induction h with
  | nil => exact .answers (.refl _)
  | cons i _ ih =>
    rw [List.mapM_cons, List.mapM_cons]
    refine (Parallel.refl _).bind fun b _ same => ih.bind fun bs cs others => ?_
    cases same
    exact .answers (others.cons b)
  | swap i j rest =>
    simp only [List.mapM_cons]
    cases hi : f i with
    | error e =>
      cases hj : f j with
      | error e' =>
        rw [only i e hi, only j e' hj]
        exact .fails fault
      | ok c => exact .fails e
    | ok b =>
      cases f j with
      | error e' => exact .fails e'
      | ok c =>
        cases rest.mapM f with
        | error e => exact .fails e
        | ok bs => exact .answers (.swap b c bs)
  | trans _ _ ih ih' => exact ih.trans List.Perm.trans ih'

end Parallel

/-! ### Computations -/

namespace Traced

variable {s t s' t' : Type} {rel : s → t → Prop} {m : Traced s β} {n : Traced t β}

/-- Two computations ended with related answers in related states, or with the same error. -/
inductive Meet (rel : s → t → Prop) (post : β → β → Prop) :
    EStateM.Result Error (s × Trace) β → EStateM.Result Error (t × Trace) β → Prop where
  | answers {b c : β} {v : s} {w : t} {trace trace' : Trace} (h : post b c) (related : rel v w) :
    Meet rel post (.ok b (v, trace)) (.ok c (w, trace'))
  | fails (e : Error) (v : s × Trace) (w : t × Trace) : Meet rel post (.error e v) (.error e w)

/-- From all related states, and after any traces, the computations meet in the end. -/
def Tandem (rel : s → t → Prop) (post : β → β → Prop) (m : Traced s β) (n : Traced t β) : Prop :=
  ∀ v w, rel v w → ∀ trace trace', Meet rel post (m (v, trace)) (n (w, trace'))

/-- Computations in tandem that answer the same have the same outcome. -/
theorem Tandem.outcome_eq (h : Tandem rel Eq m n) {v : s} {w : t} (related : rel v w) :
    (m.outcome v).1 = (n.outcome w).1 := by
  have met := h v w related #[] #[]
  rw [outcome, outcome]
  generalize m (v, #[]) = x at met
  generalize n (w, #[]) = y at met
  cases met with
  | answers same => exact congrArg _ same
  | fails e => rfl

theorem tandem_pure {b c : β} (h : post b c) : Tandem rel post (pure b) (pure c) :=
  fun _ _ related _ _ => .answers h related

theorem tandem_ofExcept {x y : Except Error β} (h : Parallel post x y) :
    Tandem rel post (ofExcept x) (ofExcept y) := by
  cases h with
  | answers h => exact tandem_pure h
  | fails e => exact fun _ _ _ _ _ => .fails ..

theorem tandem_bind {f : β → Traced s γ} {g : β → Traced t γ} (h : Tandem rel post m n)
    (rest : ∀ b c, post b c → Tandem rel last (f b) (g c)) :
    Tandem rel last (m >>= f) (n >>= g) := by
  intro v w related trace trace'
  have met := h v w related trace trace'
  rw [bind_apply, bind_apply]
  generalize m (v, trace) = x at met
  generalize n (w, trace') = y at met
  cases met with
  | answers here related => exact rest _ _ here _ _ related _ _
  | fails e => exact .fails ..

/-- What follows the same answer goes on from it. -/
theorem tandem_same_bind {f : β → Traced s γ} {g : β → Traced t γ} (h : Tandem rel Eq m n)
    (rest : ∀ b, Tandem rel last (f b) (g b)) : Tandem rel last (m >>= f) (n >>= g) :=
  tandem_bind h fun b _ same => same ▸ rest b

theorem tandem_value_bind {f : s → Traced s γ} {g : t → Traced t γ}
    (h : ∀ v w, rel v w → Tandem rel last (f v) (g w)) :
    Tandem rel last (value >>= f) (value >>= g) :=
  fun v w related => h v w related v w related

theorem tandem_ask {question : s → Except Error β} {question' : t → Except Error β}
    (h : ∀ v w, rel v w → Parallel post (question v) (question' w)) :
    Tandem rel post (ask question) (ask question') :=
  tandem_value_bind fun v w related => tandem_ofExcept (h v w related)

theorem tandem_log {level : Level} {origin : Origin} {text text' : String} :
    Tandem rel Eq (log level origin text) (log level origin text') :=
  fun _ _ related _ _ => .answers rfl related

theorem tandem_within {span : Span} (h : Tandem rel post m n) :
    Tandem rel post (within span m) (within span n) := by
  intro v w related trace trace'
  have met := h v w related (trace.push (.enter span)) (trace'.push (.enter span))
  rw [within, within]
  generalize m (v, _) = x at met
  generalize n (w, _) = y at met
  cases met with
  | answers here related => exact .answers here related
  | fails e => exact .fails ..

theorem tandem_mapM {f : ι → Traced s β} {g : ι → Traced t β}
    (each : ∀ i, Tandem rel post (f i) (g i)) :
    ∀ items : List ι, Tandem rel (List.Forall₂ post) (items.mapM f) (items.mapM g)
  | [] => tandem_pure .nil
  | i :: items => by
    rw [List.mapM_cons, List.mapM_cons]
    refine tandem_bind (each i) fun b c first => ?_
    refine tandem_bind (tandem_mapM each items) fun bs cs others => ?_
    exact tandem_pure (.cons first others)

theorem tandem_atIndex (h : Tandem rel post m n) (i : Nat) :
    Tandem (Pointwise rel) post (atIndex i m) (atIndex i n) := by
  intro xs ys related trace trace'
  rw [atIndex, atIndex]
  by_cases hx : i < xs.size
  · have hy : i < ys.size := related.size_eq ▸ hx
    have met := h xs[i] ys[i] (related.each i hx hy) trace trace'
    rw [dif_pos hx, dif_pos hy]
    generalize m (xs[i], trace) = x at met
    generalize n (ys[i], trace') = y at met
    cases met with
    | answers here after => exact .answers here (related.set hx hy after)
    | fails e => exact .fails ..
  · have hy : ¬i < ys.size := related.size_eq ▸ hx
    rw [dif_neg hx, dif_neg hy]
    exact .fails ..

end Traced

/-! ### Calculations -/

section Calculations

open Traced

variable {σ τ α : Type} {rel : σ → τ → Prop} [AtomicSystem σ α] [AtomicSystem τ α]

theorem tandem_numbers : Tandem (Pointwise rel) Eq Systems.numbers Systems.numbers :=
  tandem_value_bind fun _ _ related => tandem_pure (congrArg List.range related.size_eq)

/-- Calculations that prepare and fill the same descriptors in tandem give the same. -/
theorem Calculator.gives_eq_of_tandem [Scalar α] {c : Calculator α} {workers : Workers}
    {samples features : Selection}
    (ready : Tandem (Pointwise rel) Eq (c.ready samples features) (c.ready samples features))
    (fill : ∀ d, Tandem (Pointwise rel) Eq (c.kernel.fill workers d) (c.kernel.fill workers d))
    {xs : Systems σ} {ys : Systems τ} (related : Pointwise rel xs ys) (d d' : Descriptor α) :
    c.gives workers ⟨false, samples, features⟩ xs d
      = c.gives workers ⟨false, samples, features⟩ ys d' := by
  have stage (trace : Trace) : (c.courseDirectly workers samples features xs trace).stage
      = (c.courseDirectly workers samples features ys trace).stage := by
    have prepared := ready xs ys related trace trace
    rw [courseDirectly, courseDirectly]
    generalize c.ready samples features (xs, trace) = x at prepared
    generalize c.ready samples features (ys, trace) = y at prepared
    cases prepared with
    | fails e => rfl
    | @answers d₁ d₂ v w trace₁ trace₂ same related =>
      cases same
      have filled := fill d₁ v w related trace₁ trace₂
      dsimp only
      generalize c.kernel.fill workers d₁ (v, trace₁) = x at filled
      generalize c.kernel.fill workers d₁ (w, trace₂) = y at filled
      cases filled with
      | fails e => rfl
      | @answers left left' _ _ _ _ same =>
        cases same
        obtain ⟨left, _ | _⟩ := left <;> rfl
  rw [(c.gives_eq_gives workers _ xs d d').1, gives, gives, outcome_compute, outcome_compute]
  change (c.courseDirectly workers samples features xs #[.enter .compute]).stage.result.map (fun _ =>
    (c.courseDirectly workers samples features xs #[.enter .compute]).stage.apply d') = _
  rw [stage]
  rfl

end Calculations

end Atomistic
