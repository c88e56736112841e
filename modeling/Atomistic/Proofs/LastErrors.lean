import Atomistic.Proofs.CarefulCalls

/-!
# The last error

A program makes one call after the other. Each call that fails sets the text of the last error to its
own message and leaves everything else to the program as it was; no call that goes well touches this
text. So whenever the program asks for the last error, it is told of the last call that failed.
-/

namespace Atomistic.Foreign

open Traced

/-- A call of a program, with all that it gives to the call. Where faults of JSON are found, and what
workers choose, is not up to the program. -/
inductive MadeCall : Type 1 where
  | createCalculator (locate : Json.Locator) (name parameters : Option (List UInt8))
  | freeCalculator (calculator : Option Handle)
  | calculatorName (calculator : Option Handle) (buffer : Option Buffer)
  | calculatorParameters (calculator : Option Handle) (buffer : Option Buffer)
  | createDescriptor
  | freeDescriptor (descriptor : Option Handle)
  | values (descriptor : Option Handle) (missing : List String) (outputs : View Float)
  | gradients (descriptor : Option Handle) (missing : List String) (outputs : View Float)
  | labels (descriptor : Option Handle) (axis : Axis) (missing : List String) (outputs : View Int)
  | names (descriptor : Option Handle) (axis : Axis) (list : Option (List (Option String)))
  | densify (descriptor : Option Handle) (pointers : Option (List (Option (List UInt8))))
    (count : Nat)
  | densifyToFeatures (descriptor : Option Handle)
    (pointers : Option (List (Option (List UInt8)))) (count : Nat)
  | compute {σ : Type} (calculator descriptor : Option Handle)
    (systems : Option (Systems (ForeignSystem σ Float))) (workers : Workers) (count : Nat)
    (options : CalculationOptions)
  | lastError
  | listen (on : Bool)
  | measure (on : Bool)
  | clearProfile
  | profile (format : Option (List UInt8)) (buffer : Option Buffer)

namespace MadeCall

/-- What a call may write to: an object that it returns, a buffer, other outputs, or systems. -/
def Place : MadeCall → Type
  | createCalculator .. | createDescriptor => Option Handle
  | calculatorName .. | calculatorParameters .. | profile .. => Option Buffer
  | values .. | gradients .. => View Float
  | labels .. => View Int
  | names .. => Option (List (Option String))
  | @compute σ .. => Option (Systems (ForeignSystem σ Float))
  | lastError => Option (List UInt8)
  | freeCalculator _ | freeDescriptor _ | densify .. | densifyToFeatures .. | listen _ | measure _
  | clearProfile => Unit

/-- What stands there before the call. What is returned is a null pointer at first. -/
def place : (c : MadeCall) → c.Place
  | createCalculator .. | createDescriptor | lastError => none
  | calculatorName _ buffer | calculatorParameters _ buffer | profile _ buffer => buffer
  | values _ _ outputs | gradients _ _ outputs => outputs
  | labels _ _ _ outputs => outputs
  | names _ _ list => list
  | compute _ _ systems _ _ _ => systems
  | freeCalculator _ | freeDescriptor _ | densify .. | densifyToFeatures .. | listen _ | measure _
  | clearProfile => ()

/-- What a call does. -/
def body : (c : MadeCall) → Traced (Exchange c.Place) Unit
  | createCalculator locate name parameters => Call.createCalculator locate name parameters
  | freeCalculator calculator => Call.freeCalculator calculator
  | calculatorName calculator _ => Call.calculatorName calculator
  | calculatorParameters calculator _ => Call.calculatorParameters calculator
  | createDescriptor => Call.createDescriptor
  | freeDescriptor descriptor => Call.freeDescriptor descriptor
  | values descriptor missing _ => Call.values descriptor missing
  | gradients descriptor missing _ => Call.gradients descriptor missing
  | labels descriptor axis missing _ => Call.labels descriptor axis missing
  | names descriptor axis _ => Call.names descriptor axis
  | densify descriptor pointers count => Call.densify descriptor pointers count
  | densifyToFeatures descriptor pointers count => Call.densifyToFeatures descriptor pointers count
  | compute calculator descriptor _ workers count options =>
    Call.compute calculator descriptor workers count options
  | lastError => Call.lastError
  | listen on => Call.listen on
  | measure on => Call.measure on
  | clearProfile => Call.clearProfile
  | profile format _ => Call.profile format

/-- What the program gets. -/
def reply (c : MadeCall) (s : Session) : Reply c.Place := s.run c.place c.body

/-- The error of a call, if it has one. -/
def error? (c : MadeCall) (s : Session) : Option Error :=
  match (c.body.outcome (s, c.place)).1 with
  | .ok () => none
  | .error e => some e

/-- How a program sees that a call failed: by a null pointer where one is returned, and by the status
otherwise. -/
def Failed : (c : MadeCall) → Reply c.Place → Prop
  | createCalculator .., reply => reply.place = none
  | createDescriptor, reply => reply.place = none
  | lastError, reply => reply.place = none
  | _, reply => reply.status ≠ .success

/-- Is this the handle of the descriptor that a calculation is made on? -/
def Fills : MadeCall → Option Handle → Prop
  | compute _ descriptor _ _ _ _, h => h = descriptor
  | _, _ => False

/-- Nothing was written to the place of a call. The systems that are given to a calculation belong to
their callbacks, so this is about the callbacks then. -/
def Unwritten : (c : MadeCall) → c.Place → Prop
  | compute _ _ systems _ _ _, after => after.map tables = systems.map tables
  | c, after => after = c.place

/-- All is as before the call, except for the descriptor of a calculation and for the text of the
last error. -/
structure LeftAlone (c : MadeCall) (s : Session) (w : Exchange c.Place) : Prop where
  place : c.Unwritten w.2
  calculators : w.1.calculators = s.calculators
  descriptors : ∀ h, ¬c.Fills h → w.1.descriptors.get? h = s.descriptors.get? h

/-! ### One call -/

variable {c : MadeCall} {s : Session}

theorem unwritten_place (c : MadeCall) : c.Unwritten c.place := by
  cases c <;> exact rfl

theorem ensures_of_careful (careful : Call.Careful c.body) :
    Ensures c.body (s, c.place) fun r w =>
      w.1.lastError = s.lastError ∧ ∀ e, r = .error e → c.LeftAlone s w :=
  ensures_mono (careful (s, c.place)) fun _ _ ⟨text, fails⟩ => ⟨text, fun e he => by
    rw [fails e he]
    exact ⟨c.unwritten_place, rfl, fun _ _ => rfl⟩⟩

/-- A call does not touch the text of the last error itself, and if it fails nothing else either. -/
theorem ensures_body (c : MadeCall) (s : Session) :
    Ensures c.body (s, c.place) fun r w =>
      w.1.lastError = s.lastError ∧ ∀ e, r = .error e → c.LeftAlone s w := by
  cases c with
  | compute calculator descriptor systems workers count options =>
    refine ensures_mono (Call.ensures_compute_untouched calculator descriptor workers count options
      (s, systems)) fun _ w untouched => ⟨untouched.lastError, fun _ _ => ?_⟩
    exact ⟨untouched.tables, untouched.calculators, untouched.descriptors⟩
  | createCalculator => exact ensures_of_careful Call.careful_createCalculator
  | freeCalculator => exact ensures_of_careful Call.careful_freeCalculator
  | calculatorName => exact ensures_of_careful Call.careful_calculatorName
  | calculatorParameters => exact ensures_of_careful Call.careful_calculatorParameters
  | createDescriptor => exact ensures_of_careful Call.careful_createDescriptor
  | freeDescriptor => exact ensures_of_careful Call.careful_freeDescriptor
  | values => exact ensures_of_careful Call.careful_values
  | gradients => exact ensures_of_careful Call.careful_gradients
  | labels => exact ensures_of_careful Call.careful_labels
  | names => exact ensures_of_careful Call.careful_names
  | densify => exact ensures_of_careful Call.careful_densify
  | densifyToFeatures => exact ensures_of_careful Call.careful_densifyToFeatures
  | lastError => exact ensures_of_careful Call.careful_lastError
  | listen => exact ensures_of_careful Call.careful_listen
  | measure => exact ensures_of_careful Call.careful_measure
  | clearProfile => exact ensures_of_careful Call.careful_clearProfile
  | profile => exact ensures_of_careful Call.careful_profile

theorem status_reply_ne_iff (c : MadeCall) (s : Session) :
    (c.reply s).status ≠ .success ↔ (c.body.outcome (s, c.place)).1 ≠ .ok () :=
  not_congr Status.ofOutcome_eq_success

/-- A program sees that a call failed exactly when it did. -/
theorem failed_reply_iff (c : MadeCall) (s : Session) :
    c.Failed (c.reply s) ↔ (c.body.outcome (s, c.place)).1 ≠ .ok () := by
  cases c with
  | createCalculator locate name parameters =>
    have ends : Ensures (Call.createCalculator locate name parameters) (s, none) fun r w =>
        w.2 = none ↔ r ≠ .ok () :=
      Call.ensures_createCalculator (fun _ => iff_of_false nofun (not_not_intro rfl))
        fun _ => iff_of_true rfl nofun
    exact ends.outcome
  | createDescriptor => exact iff_of_false nofun (not_not_intro rfl)
  | lastError => exact iff_of_false nofun (not_not_intro rfl)
  | _ => exact status_reply_ne_iff _ s

/-- What a call does about errors. -/
def Disciplined (c : MadeCall) (s : Session) : Prop :=
  let reply := c.reply s
  match c.error? s with
  | none => ¬c.Failed reply ∧ reply.session.lastError = s.lastError
  | some e => c.Failed reply ∧ reply.session.lastError = escapeZeros e.message ∧
      c.LeftAlone s (reply.session, reply.place)

theorem disciplined (c : MadeCall) (s : Session) : c.Disciplined s := by
  have ends := (c.ensures_body s).outcome
  have failed := c.failed_reply_iff s
  rw [Disciplined, error?]
  cases answer : (c.body.outcome (s, c.place)).1 with
  | ok _ =>
    rw [answer] at failed
    exact ⟨failed.not.2 (not_not_intro rfl), (Session.lastError_run_of_ok answer).trans ends.1⟩
  | error e =>
    rw [answer] at failed
    have left := ends.2 e answer
    refine ⟨failed.2 nofun, Session.lastError_run_of_error answer, ⟨left.place, ?_, ?_⟩⟩
    · exact (Session.calculators_run ..).trans left.calculators
    · intro h other
      rw [← left.descriptors h other]
      exact congrArg (·.get? h) (Session.descriptors_run ..)

end MadeCall

/-! ### Many calls -/

open MadeCall

/-- The session after some calls. -/
def Session.after (s : Session) (calls : List MadeCall) : Session :=
  calls.foldl (fun s c => (c.reply s).session) s

/-- The error of the last one of some calls that failed. -/
def lastFailure? (s : Session) : List MadeCall → Option Error
  | [] => none
  | c :: calls => (lastFailure? (c.reply s).session calls).or (c.error? s)

/-- The text of the last error after some calls is the message of the last one that failed. -/
theorem Session.lastError_after (calls : List MadeCall) : ∀ s : Session,
    (s.after calls).lastError =
      ((lastFailure? s calls).map fun e => escapeZeros e.message).getD s.lastError := by
  induction calls with
  | nil => exact fun _ => rfl
  | cons c calls ih =>
    intro s
    have first := c.disciplined s
    rw [after, List.foldl_cons, ← after, ih, lastFailure?]
    rw [Disciplined] at first
    -- the first call only counts if none of the later ones failed
    cases lastFailure? (c.reply s).session calls with
    | some e => rfl
    | none =>
      cases own : c.error? s with
      | none =>
        rw [own] at first
        exact first.2
      | some e =>
        rw [own] at first
        exact first.2.1

/-- Errors over any sequence of calls. A call that goes well leaves the text of the last error; a call
that fails sets it to its own message, in which zeros are written as a backslash and the digit 0, and
leaves all else, such as the descriptor that it was to move variables of. So a program that asks for
the last error afterwards reads the whole message of the last call that failed. -/
theorem errors_of_calls (s : Session) (calls : List MadeCall) :
    (∀ before c later, calls = before ++ c :: later → c.Disciplined (s.after before)) ∧
    let told := (MadeCall.lastError.reply (s.after calls)).place
    match lastFailure? s calls with
    | none => told = (MadeCall.lastError.reply s).place
    | some e => ∃ bytes, told = some bytes ∧
        beforeZero bytes = Utf8.encode (escapeZeros e.message) ∧ escapeZeros e.message ≠ "" := by
  refine ⟨fun before c _ _ => c.disciplined (s.after before), ?_⟩
  have text := s.lastError_after calls
  have told (s : Session) : (MadeCall.lastError.reply s).place =
      some (Utf8.encode s.lastError ++ [0]) := rfl
  cases last : lastFailure? s calls with
  | none =>
    rw [last] at text
    dsimp only
    rw [told, told, text]
    rfl
  | some e =>
    rw [last] at text
    refine ⟨_, told _, ?_, escapeZeros_ne_empty e.message_ne_empty⟩
    rw [text]
    exact beforeZero_encode (zero_not_mem_escapeZeros e.message)

/-- A descriptor can not be told which variables to move, and stays; freeing no calculator is no
error. -/
theorem errors_of_calls_nullVariables :
    let calls : List MadeCall :=
      [.createDescriptor, .densify (some 0) none 1, .freeCalculator none]
    let s := Session.initial.after calls
    s.lastError = "invalid parameter: got invalid NULL pointer for variables" ∧
      s.descriptors.get? (some 0) = some .new ∧
      ∃ bytes, (MadeCall.lastError.reply s).place = some bytes ∧
        beforeZero bytes = Utf8.encode s.lastError := by
  intro calls s
  obtain ⟨each, told⟩ := errors_of_calls .initial calls
  have failing := each [.createDescriptor] (.densify (some 0) none 1) [.freeCalculator none] rfl
  have freeing := each [.createDescriptor, .densify (some 0) none 1] (.freeCalculator none) [] rfl
  obtain ⟨-, text, left⟩ := failing
  have same : s.lastError = "invalid parameter: got invalid NULL pointer for variables" :=
    freeing.2.trans text
  refine ⟨same, left.descriptors (some 0) not_false, ?_⟩
  obtain ⟨bytes, found, whole, -⟩ := told
  exact ⟨bytes, found, whole.trans (congrArg Utf8.encode same.symm)⟩

end Atomistic.Foreign
