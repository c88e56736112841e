import Atomistic.Proofs.LastErrors

/-!
# Calculators that are kept

A calculator stays behind its handle from the call that creates it to the one that frees it: no
other call changes it or gives its handle to another one, whatever the calls are about and however
they end.
-/

namespace Atomistic.Foreign

open Traced

/-! ### Objects of other handles -/

namespace Store

variable {β : Type} {s : Store β} {h : Option Handle} {v : β}

/-- A new object gets a handle of its own. -/
theorem get?_insert_of_some (there : s.get? h = some v) (w : β) : (s.insert w).get? h = some v := by
  cases h with
  | none => cases there
  | some i =>
    have before : i < s.slots.size := by
      by_contra beyond
      simp [get?, beyond] at there
    rw [get?] at there ⊢
    rw [insert, Array.getElem?_push_lt before, ← Array.getElem?_eq_getElem before]
    exact there

/-- Freeing an object leaves the others. -/
theorem get?_remove_of_ne {h' : Option Handle} (other : h ≠ h') :
    (s.remove h').get? h = s.get? h := by
  cases h' with
  | none => rfl
  | some i =>
    cases h with
    | none => rfl
    | some j =>
      have ne : i ≠ j := fun same => other (congrArg some same.symm)
      rw [get?, get?, remove, Array.getElem?_setIfInBounds_ne ne]

end Store

/-! ### Calls that leave calculators alone -/

namespace Call

variable {β γ δ : Type}

/-- The calculators of the session stay as they are. -/
def KeepsCalculators (m : Traced (Exchange β) γ) : Prop :=
  ∀ v, Ensures m v fun _ w => w.1.calculators = v.1.calculators

/-- Questions may come before. -/
theorem Asks.keeps_bind {m : Traced (Exchange β) γ} {f : γ → Traced (Exchange β) δ} (h : Asks m)
    (rest : ∀ b, KeepsCalculators (f b)) : KeepsCalculators (m >>= f) := fun v =>
  h.ensures_bind (fun b => rest b v) fun _ => rfl

theorem keeps_leave (result : β) : KeepsCalculators (leave result) := fun _ _ => rfl

theorem keeps_change {f : Session → Session} (h : ∀ s, (f s).calculators = s.calculators) :
    KeepsCalculators (change f : Traced (Exchange β) Unit) := fun v _ => h v.1

theorem keeps_onDescriptor (h : Option Handle) (m : Traced (Descriptor Float) γ) :
    KeepsCalculators (onDescriptor h m : Traced (Exchange β) γ) := by
  rintro ⟨s, place⟩
  refine ensures_descriptor_bind (fun d _ => ?_) fun _ => rfl
  exact ensures_focus fun _ => rfl

theorem keeps_leaveText (name text : String) : KeepsCalculators (leaveText name text) :=
  asks_value.keeps_bind fun _ => (asks_ofExcept _).keeps_bind fun _ =>
    (asks_ofExcept _).keeps_bind fun _ => keeps_leave _

theorem keeps_names (descriptor : Option Handle) (axis : Axis) :
    KeepsCalculators (names descriptor axis) := by
  refine (asks_descriptor _).keeps_bind fun d => asks_value.keeps_bind fun v => ?_
  refine (asks_ofExcept _).keeps_bind fun place => ?_
  dsimp only
  split
  · exact (asks_ofExcept (.error _)).keeps_bind fun _ => keeps_leave _
  · exact keeps_leave _

theorem keeps_profile (format : Option (List UInt8)) : KeepsCalculators (profile format) := by
  refine (asks_ofExcept _).keeps_bind fun format => asks_value.keeps_bind fun v => ?_
  refine (asks_ofExcept _).keeps_bind fun _ => asks_session.keeps_bind fun s => ?_
  refine (asks_ofExcept _).keeps_bind fun text => ?_
  dsimp only
  split
  · exact keeps_leaveText _ _
  · exact keeps_leaveText _ _
  · exact keeps_leaveText _ _
  · exact (asks_ofExcept (.error _)).keeps_bind fun _ => keeps_leaveText _ _

end Call

/-! ### One call -/

namespace MadeCall

/-- Is this the handle of the calculator that is freed? -/
def Frees : MadeCall → Option Handle → Prop
  | freeCalculator calculator, h => h = calculator
  | _, _ => False

variable {s : Session} {h : Option Handle} {k : Calculator Float}

open Foreign.Call in
/-- A call that does not free a calculator leaves it behind its handle. -/
theorem get?_reply (c : MadeCall) (there : s.calculators.get? h = some k) (kept : ¬ c.Frees h) :
    (c.reply s).session.calculators.get? h = some k := by
  have leaves (keeps : KeepsCalculators c.body) :
      Ensures c.body (s, c.place) fun _ w => w.1.calculators.get? h = some k :=
    ensures_mono (keeps (s, c.place)) fun _ w same => by rw [same, there]
  have ends : Ensures c.body (s, c.place) fun _ w => w.1.calculators.get? h = some k := by
    cases c with
    | createCalculator locate name parameters =>
      exact ensures_createCalculator (fun _ => Store.get?_insert_of_some there _) fun _ => there
    | freeCalculator calculator =>
      exact fun _ => (Store.get?_remove_of_ne kept).trans there
    | compute calculator descriptor systems workers count options =>
      refine ensures_mono (ensures_compute_untouched calculator descriptor workers count options
        (s, systems)) fun _ w untouched => ?_
      rw [untouched.calculators, there]
    | calculatorName => exact leaves ((asks_calculator _).keeps_bind fun _ => keeps_leaveText _ _)
    | calculatorParameters =>
      exact leaves ((asks_calculator _).keeps_bind fun _ => keeps_leaveText _ _)
    | createDescriptor => exact leaves (asks_session.keeps_bind fun _ _ _ => rfl)
    | freeDescriptor => exact leaves (keeps_change fun _ => rfl)
    | values =>
      exact leaves ((asks_descriptor _).keeps_bind fun _ => (asks_ofExcept _).keeps_bind fun _ =>
        (asks_ofExcept _).keeps_bind fun _ => keeps_leave _)
    | gradients =>
      exact leaves ((asks_descriptor _).keeps_bind fun _ => (asks_ofExcept _).keeps_bind fun _ =>
        keeps_leave _)
    | labels =>
      exact leaves ((asks_descriptor _).keeps_bind fun _ => (asks_ofExcept _).keeps_bind fun _ =>
        keeps_leave _)
    | names descriptor axis => exact leaves (keeps_names descriptor axis)
    | densify => exact leaves (keeps_onDescriptor _ _)
    | densifyToFeatures => exact leaves (keeps_onDescriptor _ _)
    | lastError => exact leaves (asks_session.keeps_bind fun _ => keeps_leave _)
    | listen => exact leaves (keeps_change fun _ => rfl)
    | measure => exact leaves (keeps_change fun _ => rfl)
    | clearProfile => exact leaves (keeps_change fun _ => rfl)
    | profile format => exact leaves (keeps_profile format)
  rw [reply, Session.calculators_run]
  exact ends.outcome

end MadeCall

/-! ### Many calls -/

/-- A calculator that is not freed stays behind its handle. -/
theorem Session.get?_after {h : Option Handle} {k : Calculator Float} (calls : List MadeCall) :
    ∀ s : Session, s.calculators.get? h = some k → (∀ c ∈ calls, ¬ c.Frees h) →
      (s.after calls).calculators.get? h = some k := by
  induction calls with
  | nil => exact fun _ there _ => there
  | cons c calls ih =>
    intro s there kept
    rw [after, List.foldl_cons, ← after]
    exact ih _ (c.get?_reply there (kept c List.mem_cons_self))
      fun c' later => kept c' (List.mem_cons_of_mem _ later)

/-! ### Creation -/

/-- A calculator that some bytes ask for: what is created from the texts that they hold. -/
inductive AskedFor (locate : Json.Locator) :
    Option (List UInt8) → Option (List UInt8) → Calculator Float → Prop where
  | intro {name parameters : List UInt8} {nameText parametersText : String} {k : Calculator Float} :
    readText name = .ok nameText → readText parameters = .ok parametersText →
    Calculator.create locate nameText parametersText = .ok k →
    AskedFor locate (some name) (some parameters) k

/-- A handle that is returned is that of the calculator that was asked for. -/
theorem exists_of_createCalculator {s : Session} {locate : Json.Locator}
    {name parameters : Option (List UInt8)} {h : Handle}
    (made : ((MadeCall.createCalculator locate name parameters).reply s).place = some h) :
    ∃ k, AskedFor locate name parameters k ∧
      ((MadeCall.createCalculator locate name parameters).reply s).session.calculators.get? (some h)
        = some k := by
  have given_eq {name : String} {bytes : Option (List UInt8)} {b : List UInt8}
      (given : Call.given name bytes = .ok b) : bytes = some b := by
    cases bytes <;> cases given
    rfl
  have ends : Ensures (Call.createCalculator locate name parameters) (s, none) fun _ w =>
      ∀ h, w.2 = some h → ∃ k, AskedFor locate name parameters k ∧
        w.1.calculators.get? (some h) = some k := by
    refine ensures_ofExcept_bind (fun n hn => ?_) fun _ _ => nofun
    refine ensures_ofExcept_bind (fun p hp => ?_) fun _ _ => nofun
    refine ensures_ofExcept_bind (fun nameText readName => ?_) fun _ _ => nofun
    refine ensures_ofExcept_bind (fun parametersText readParameters => ?_) fun _ _ => nofun
    refine ensures_ofExcept_bind (fun k created => ?_) fun _ _ => nofun
    rintro _ h returned
    cases returned
    rw [given_eq hn, given_eq hp]
    exact ⟨k, .intro readName readParameters created, Store.get?_insert _ k⟩
  rw [MadeCall.reply, Session.calculators_run]
  exact ends.outcome h made

end Atomistic.Foreign
