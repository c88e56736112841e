import Atomistic.Proofs.Traced

/-!
# Computations beside each other

The same computation over two kinds of systems goes the same way as long as both give the same
answers. A system error ends it. What is known of the other one then depends on what stands in the
place of the missing answer: if that is a system error too, it ends like this as well; if it can be
anything, nothing is known. Both are followed at once, the proposition `strict` says which of the two
is meant. There is one rule for each way in which computations are put together.
-/

namespace Atomistic

variable {β γ ι : Type} {strict : Prop}

/-! ### Answers -/

/-- A system did not give an answer. -/
def SystemFails (x : Except Error β) : Prop := ∃ cause, x = .error (.system cause)

/-- The answers are the same, or there is none from the first system and, strictly, none from the
second one. -/
def Agree (strict : Prop) (x y : Except Error β) : Prop :=
  x = y ∨ SystemFails x ∧ (strict → SystemFails y)

theorem SystemFails.bind {x : Except Error β} (h : SystemFails x) (f : β → Except Error γ) :
    SystemFails (x >>= f) := by
  obtain ⟨cause, rfl⟩ := h
  exact ⟨cause, rfl⟩

theorem agree_rfl {x : Except Error β} : Agree strict x x := .inl rfl

theorem agree_bind {x y : Except Error β} {f g : β → Except Error γ} (h : Agree strict x y)
    (rest : ∀ b, Agree strict (f b) (g b)) : Agree strict (x >>= f) (y >>= g) := by
  rcases h with rfl | ⟨fails, also⟩
  · cases x with
    | ok b => exact rest b
    | error e => exact agree_rfl
  · exact .inr ⟨fails.bind f, fun strictly => (also strictly).bind g⟩

theorem agree_mapM {f g : ι → Except Error β} (h : ∀ i, Agree strict (f i) (g i)) :
    ∀ items : List ι, Agree strict (items.mapM f) (items.mapM g)
  | [] => agree_rfl
  | i :: items => by
    rw [List.mapM_cons, List.mapM_cons]
    exact agree_bind (h i) fun b => agree_bind (agree_mapM h items) fun bs => agree_rfl

/-! ### Computations -/

namespace Traced

variable {s t s' t' : Type} {rel : s → t → Prop} {m : Traced s β} {n : Traced t β}

/-- Two computations end with the same answer in related states, or the first one with a system error
and, strictly, the second one too. -/
def Alike (strict : Prop) (rel : s → t → Prop) (x : Except Error β × s) (y : Except Error β × t) :
    Prop :=
  x.1 = y.1 ∧ rel x.2 y.2 ∨ SystemFails x.1 ∧ (strict → SystemFails y.1)

/-- From two states, and after any traces, the computations end alike. -/
def MirrorsAt (strict : Prop) (rel : s → t → Prop) (m : Traced s β) (n : Traced t β) (v : s)
    (w : t) : Prop :=
  ∀ trace trace', Alike strict rel (ending (m (v, trace))) (ending (n (w, trace')))

/-- From all related states the computations end alike. -/
def Mirrors (strict : Prop) (rel : s → t → Prop) (m : Traced s β) (n : Traced t β) : Prop :=
  ∀ v w, rel v w → MirrorsAt strict rel m n v w

theorem mirrors_pure (b : β) : Mirrors strict rel (pure b) (pure b) :=
  fun _ _ related _ _ => .inl ⟨rfl, related⟩

theorem mirrorsAt_ofExcept {x y : Except Error β} {v : s} {w : t} (h : Agree strict x y)
    (related : rel v w) : MirrorsAt strict rel (ofExcept x) (ofExcept y) v w := by
  intro trace trace'
  rw [ofExcept_apply, ofExcept_apply]
  rcases h with rfl | ⟨⟨cause, rfl⟩, also⟩
  · cases x <;> exact .inl ⟨rfl, related⟩
  · refine .inr ⟨⟨cause, rfl⟩, fun strictly => ?_⟩
    obtain ⟨cause', rfl⟩ := also strictly
    exact ⟨cause', rfl⟩

theorem mirrors_ofExcept (x : Except Error β) :
    Mirrors strict rel (ofExcept x) (ofExcept x) :=
  fun _ _ related => mirrorsAt_ofExcept agree_rfl related

/-- What follows after a system error makes no difference. -/
theorem fails_bind {f : β → Traced s γ} {v : s} {trace : Trace}
    (h : SystemFails (ending (m (v, trace))).1) :
    SystemFails (ending ((m >>= f) (v, trace))).1 := by
  obtain ⟨cause, fails⟩ := h
  rw [bind_apply]
  cases hm : m (v, trace) with
  | ok b v' =>
    rw [hm] at fails
    cases fails
  | error e v' =>
    rw [hm] at fails
    cases fails
    exact ⟨cause, rfl⟩

theorem mirrors_bind {f : β → Traced s γ} {g : β → Traced t γ} (h : Mirrors strict rel m n)
    (rest : ∀ b, Mirrors strict rel (f b) (g b)) : Mirrors strict rel (m >>= f) (n >>= g) := by
  intro v w related trace trace'
  rcases h v w related trace trace' with ⟨same, related'⟩ | ⟨fails, also⟩
  · rw [bind_apply, bind_apply]
    rcases hm : m (v, trace) with ⟨b, v', trace₁⟩ | ⟨e, v', trace₁⟩ <;>
      rcases hn : n (w, trace') with ⟨b', w', trace₂⟩ | ⟨e', w', trace₂⟩ <;>
        rw [hm, hn] at same related' <;> cases same
    · exact rest b v' w' related' trace₁ trace₂
    · exact .inl ⟨rfl, related'⟩
  · exact .inr ⟨fails_bind fails, fun strictly => fails_bind (also strictly)⟩

theorem mirrorsAt_value_bind {f : s → Traced s γ} {g : t → Traced t γ} {v : s} {w : t}
    (h : MirrorsAt strict rel (f v) (g w) v w) :
    MirrorsAt strict rel (value >>= f) (value >>= g) v w := h

theorem mirrors_ask {question : s → Except Error β} {question' : t → Except Error β}
    (h : ∀ v w, rel v w → Agree strict (question v) (question' w)) :
    Mirrors strict rel (ask question) (ask question') :=
  fun v w related => mirrorsAt_value_bind (mirrorsAt_ofExcept (h v w related) related)

/-- Records make no difference. -/
theorem mirrors_log {level level' : Level} {origin origin' : Origin} {text text' : String} :
    Mirrors strict rel (log level origin text) (log level' origin' text') :=
  fun _ _ related _ _ => .inl ⟨rfl, related⟩

theorem mirrors_within {span : Span} (h : Mirrors strict rel m n) :
    Mirrors strict rel (within span m) (within span n) := by
  intro v w related trace trace'
  have inner := h v w related (trace.push (.enter span)) (trace'.push (.enter span))
  rw [within, within]
  cases hm : m (v, trace.push (.enter span)) <;>
    cases hn : n (w, trace'.push (.enter span)) <;> rw [hm, hn] at inner <;> exact inner

/-! ### Arrays -/

/-- Arrays of the same size, whose elements are related one by one. -/
structure Pointwise (rel : s → t → Prop) (xs : Array s) (ys : Array t) : Prop where
  size_eq : xs.size = ys.size
  each : ∀ (i : Nat) (hx : i < xs.size) (hy : i < ys.size), rel xs[i] ys[i]

theorem Pointwise.set {xs : Array s} {ys : Array t} (h : Pointwise rel xs ys) {i : Nat}
    (hx : i < xs.size) (hy : i < ys.size) {x : s} {y : t} (related : rel x y) :
    Pointwise rel (xs.set i x) (ys.set i y) where
  size_eq := by rw [Array.size_set, Array.size_set, h.size_eq]
  each j hj hj' := by
    rw [Array.getElem_set, Array.getElem_set]
    split
    · exact related
    · exact h.each ..

theorem mirrors_atIndex (h : Mirrors strict rel m n) (i : Nat) :
    Mirrors strict (Pointwise rel) (atIndex i m) (atIndex i n) := by
  intro xs ys related trace trace'
  rw [atIndex, atIndex]
  by_cases hx : i < xs.size
  · have hy : i < ys.size := related.size_eq ▸ hx
    have inner := h xs[i] ys[i] (related.each i hx hy) trace trace'
    rw [dif_pos hx, dif_pos hy]
    rcases hm : m (xs[i], trace) with ⟨b, x, trace₁⟩ | ⟨e, x, trace₁⟩ <;>
      rcases hn : n (ys[i], trace') with ⟨b', y, trace₂⟩ | ⟨e', y, trace₂⟩ <;>
        rw [hm, hn] at inner <;>
          exact inner.imp_left fun alike => ⟨alike.1, related.set hx hy alike.2⟩
  · have hy : ¬i < ys.size := related.size_eq ▸ hx
    rw [dif_neg hx, dif_neg hy]
    exact .inl ⟨rfl, related⟩

end Traced
end Atomistic
