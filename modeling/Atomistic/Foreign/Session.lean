import Atomistic.Calculator
import Atomistic.Foreign.Status
import Atomistic.Foreign.Store
import Atomistic.Profile

/-!
# Sessions

What the library remembers between the calls of another language: the objects of the caller, the
text of the last error, whether anybody listens to records, and the profile. A call works on the
session and on a place that belongs to the caller, where it leaves its results. It never fails for
the caller: an error becomes a status, and its text is kept in the session.
-/

namespace Atomistic.Foreign

/-- The state between calls. -/
structure Session where
  calculators : Store (Calculator Float)
  descriptors : Store (Descriptor Float)
  lastError : String
  /-- Are records handed to a listener? -/
  listening : Bool
  /-- Are calls of measured parts counted? -/
  profiling : Bool
  profile : Profile

/-- The session before the first call. -/
def Session.initial : Session := ⟨.empty, .empty, "", false, false, .empty⟩

/-- What calls work on: the session, and the place for the results. -/
abbrev Exchange (β : Type) := Session × β

/-- What is left behind by a call. -/
structure Reply (β : Type) where
  status : Status
  session : Session
  place : β
  /-- The records that the listener was handed. -/
  records : List Burst

namespace Session

/-- The session with the calls of a trace counted, if they are. -/
def observe (s : Session) (t : Trace) : Session :=
  if s.profiling then { s with profile := s.profile.observe t } else s

/-- The session with the text of an error kept, if there was one. -/
def remember {β : Type} (s : Session) : Except Error β → Session
  | .ok _ => s
  | .error e => { s with lastError := errorText e }

/-- The records of a trace, if there is a listener. -/
def heard (s : Session) (t : Trace) : List Burst := if s.listening then t.bursts else []

/-- Run a call. -/
def run {β : Type} (s : Session) (place : β) (call : Traced (Exchange β) Unit) : Reply β :=
  let (outcome, (after, place), trace) := call.outcome (s, place)
  ⟨.ofOutcome outcome, (after.observe trace).remember outcome, place, after.heard trace⟩

end Session

namespace Call

variable {β γ : Type}

/-- The session of a call. -/
def session : Traced (Exchange β) Session := do return (← Traced.value).1

/-- Change the session. -/
def change (f : Session → Session) : Traced (Exchange β) Unit := do
  let (s, place) ← Traced.value
  Traced.setValue (f s, place)

/-- Leave a result. -/
def leave (result : β) : Traced (Exchange β) Unit := do Traced.setValue (← session, result)

/-- Something that the caller has to give. -/
def given (name : String) : Option γ → Except Error γ
  | some v => .ok v
  | none => .error (.parameter (.nullArgument name))

/-- Check that the caller gave a place for each output; the first missing one is reported. -/
def checkOutputs (outputs missing : List String) : Except Error Unit :=
  match outputs.find? missing.contains with
  | some name => .error (.parameter (.nullArgument name))
  | none => .ok ()

/-- The calculator of a handle. -/
def calculator (h : Option Handle) : Traced (Exchange β) (Calculator Float) := do
  Traced.ofExcept (given "calculator" ((← session).calculators.get? h))

/-- The descriptor of a handle. -/
def descriptor (h : Option Handle) : Traced (Exchange β) (Descriptor Float) := do
  Traced.ofExcept (given "descriptor" ((← session).descriptors.get? h))

/-- Work with the descriptor of a handle. -/
def onDescriptor (h : Option Handle) (m : Traced (Descriptor Float) γ) :
    Traced (Exchange β) γ := do
  let d ← descriptor h
  Traced.focus (fun _ => d)
    (fun (s, place) d => ({ s with descriptors := s.descriptors.set h d }, place)) m

end Call

end Atomistic.Foreign
