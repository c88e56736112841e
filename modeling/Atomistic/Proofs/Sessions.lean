import Atomistic.Foreign.Calls
import Atomistic.Proofs.KeptTexts
import Atomistic.Proofs.Traced

/-!
# What calls find and leave

A call finds its objects in the session that it is made in. What it leaves there, a session keeps
when the call has ended: counting the calls of measured parts and keeping the text of an error do not
touch the objects. There is one rule for each way in which a call looks into the session.
-/

namespace Atomistic.Foreign

open Traced

variable {β γ : Type}

/-! ### Objects -/

namespace Store

variable {s : Store β} {h h' : Option Handle} {v : β}

theorem get?_set (there : s.get? h = some v) (w : β) : (s.set h w).get? h = some w := by
  cases h with
  | none => cases there
  | some i =>
    by_cases hi : i < s.slots.size
    · simp [get?, set, hi]
    · simp [get?, hi] at there

/-- The objects of other handles stay. -/
theorem get?_set_of_ne (other : h' ≠ h) (w : β) : (s.set h w).get? h' = s.get? h' := by
  cases h with
  | none => rfl
  | some i =>
    cases h' with
    | none => rfl
    | some j =>
      rw [get?, get?, set, Array.getElem?_setIfInBounds_ne fun same => other (congrArg some same).symm]

/-- Replacing an object by itself changes nothing. -/
theorem set_self (there : s.get? h = some v) : s.set h v = s := by
  cases h with
  | none => rfl
  | some i => rw [set, setIfInBounds_self (Option.join_eq_some_iff.1 there)]

end Store

/-! ### Sessions -/

theorem Status.ofOutcome_eq_success {r : Except Error Unit} :
    ofOutcome r = .success ↔ r = .ok () := by
  rcases r with e | _
  · cases e <;> simp [ofOutcome, ofError]
  · exact iff_of_true rfl rfl

namespace Session

variable (s : Session) (place : β) (call : Traced (Exchange β) Unit)

@[simp] theorem calculators_observe (t : Trace) : (s.observe t).calculators = s.calculators := by
  rw [observe]
  split <;> rfl

@[simp] theorem descriptors_observe (t : Trace) : (s.observe t).descriptors = s.descriptors := by
  rw [observe]
  split <;> rfl

@[simp] theorem lastError_observe (t : Trace) : (s.observe t).lastError = s.lastError := by
  rw [observe]
  split <;> rfl

@[simp] theorem calculators_remember (r : Except Error γ) :
    (s.remember r).calculators = s.calculators := by
  cases r <;> rw [remember]

@[simp] theorem descriptors_remember (r : Except Error γ) :
    (s.remember r).descriptors = s.descriptors := by
  cases r <;> rw [remember]

theorem session_run : (s.run place call).session =
    ((call.outcome (s, place)).2.1.1.observe (call.outcome (s, place)).2.2).remember
      (call.outcome (s, place)).1 := rfl

theorem calculators_run :
    (s.run place call).session.calculators = (call.outcome (s, place)).2.1.1.calculators := by
  rw [session_run, calculators_remember, calculators_observe]

theorem descriptors_run :
    (s.run place call).session.descriptors = (call.outcome (s, place)).2.1.1.descriptors := by
  rw [session_run, descriptors_remember, descriptors_observe]

variable {s place call}

theorem lastError_run_of_ok (ok : (call.outcome (s, place)).1 = .ok ()) :
    (s.run place call).session.lastError = (call.outcome (s, place)).2.1.1.lastError := by
  rw [session_run, ok, remember, lastError_observe]

/-- The message of an error is kept whole. -/
theorem lastError_run_of_error {e : Error} (error : (call.outcome (s, place)).1 = .error e) :
    (s.run place call).session.lastError = escapeZeros e.message := by
  rw [session_run, error, remember, ← errorText_eq]

end Session

/-! ### Looking into the session -/

namespace Call

variable {s : Session} {place : β} {calculator descriptor : Option Handle}
  {post : Except Error γ → Exchange β → Prop}

theorem ensures_session_bind {f : Session → Traced (Exchange β) γ}
    (h : Ensures (f s) (s, place) post) : Ensures (session >>= f) (s, place) post := h

theorem ensures_calculator_bind {f : Calculator Float → Traced (Exchange β) γ}
    (ok : ∀ c, s.calculators.get? calculator = some c → Ensures (f c) (s, place) post)
    (missing : s.calculators.get? calculator = none →
      post (.error (.parameter (.nullArgument "calculator"))) (s, place)) :
    Ensures (Call.calculator calculator >>= f) (s, place) post := by
  refine ensures_bind (ensures_session_bind (ensures_ofExcept ?_))
  cases found : s.calculators.get? calculator with
  | some c => exact ok c found
  | none => exact missing found

theorem ensures_descriptor_bind {f : Descriptor Float → Traced (Exchange β) γ}
    (ok : ∀ d, s.descriptors.get? descriptor = some d → Ensures (f d) (s, place) post)
    (missing : s.descriptors.get? descriptor = none →
      post (.error (.parameter (.nullArgument "descriptor"))) (s, place)) :
    Ensures (Call.descriptor descriptor >>= f) (s, place) post := by
  refine ensures_bind (ensures_session_bind (ensures_ofExcept ?_))
  cases found : s.descriptors.get? descriptor with
  | some d => exact ok d found
  | none => exact missing found

/-- A calculation is made on the first of the systems that are given, unless something is missing. -/
theorem ensures_compute {σ : Type} [AtomicSystem σ Float] {place : Option (Systems σ)}
    {post : Except Error Unit → Exchange (Option (Systems σ)) → Prop} {count : Nat}
    (workers : Workers) (options : CalculationOptions)
    (missing : s.calculators.get? calculator = none ∨ s.descriptors.get? descriptor = none ∨
      place = none ∧ count ≠ 0 → ∀ e, post (.error e) (s, place))
    (made : ∀ c d, s.calculators.get? calculator = some c → s.descriptors.get? descriptor = some d →
      Ensures (c.compute workers options) ((place.getD #[]).extract 0 count, d) fun r w =>
        post r ({ s with descriptors := s.descriptors.set descriptor w.2 },
          place.map fun all => w.1 ++ all.extract w.1.size all.size)) :
    Ensures (Call.compute calculator descriptor workers count options) (s, place) post := by
  refine ensures_calculator_bind (fun c hc => ?_) fun none => missing (.inl none) _
  refine ensures_descriptor_bind (fun d hd => ?_) fun none => missing (.inr (.inl none)) _
  have calculation := made c d hc hd
  -- without systems their place is not looked at, so it need not be there
  split
  · next zero =>
    have first : (place.getD #[]).extract 0 count = #[] := by rw [zero]; simp
    rw [first] at calculation
    refine ensures_log_bind (ensures_bind (ensures_pure ?_))
    dsimp only [andThen]
    exact ensures_focus calculation
  · next some =>
    cases place with
    | none => exact ensures_value_bind (ensures_throw (missing (.inr (.inr ⟨rfl, some⟩)) _))
    | some all =>
      refine ensures_value_bind (ensures_of_ok_bind rfl (ensures_bind (ensures_pure ?_)))
      dsimp only [andThen]
      exact ensures_focus calculation

end Call

end Atomistic.Foreign
