import Atomistic.Proofs.KeptCalculators
import Atomistic.Proofs.ZeroFreeTexts

/-!
# Texts that are handed out

A caller lends a buffer to be told the name or the parameters of a calculator. It gets the whole
text and a zero behind it if there is room for both, and nothing otherwise. The parameters are then
read as they are. The name of a calculator for tests can hold a zero, where a caller stops to read.
-/

namespace Atomistic.Foreign

open Traced

/-! ### Buffers -/

/-- The buffer has room for the text and for a zero behind it. -/
def HasRoom (buffer : Option Buffer) (text : String) : Prop :=
  ∃ b, buffer = some b ∧ (Utf8.encode text).length < b.length

/-- How a call ends that leaves a text in a buffer. -/
structure HandsOut (text : String) (buffer : Option Buffer) (status : Status)
    (left : Option Buffer) : Prop where
  success_iff : status = .success ↔ HasRoom buffer text
  refused : status ≠ .success → status = .invalidParameter ∧ left = buffer
  /-- Nothing is written behind the text and its zero, where the buffer ends with the same bytes. -/
  written : status = .success → ∃ before front behind, buffer = some (before ++ behind) ∧
    left = some (front ++ behind) ∧ before.length = front.length ∧
    front = Utf8.encode text ++ [0]
  read : status = .success → left.map beforeZero = some (Utf8.encode (upToZero text))
  /-- The caller reads the whole text exactly when it has no zeros. -/
  whole_iff : status = .success →
    (left.map beforeZero = some (Utf8.encode text) ↔ ZeroFree text)

variable {s : Session} {buffer : Option Buffer} {text name : String}

theorem handsOut_of_room {b : Buffer} (room : (Utf8.encode text).length < b.length) :
    HandsOut text (some b) .success
      (some (Utf8.encode text ++ [0] ++ b.drop (Utf8.encode text ++ [0]).length)) where
  success_iff := iff_of_true rfl ⟨b, rfl, room⟩
  refused failed := absurd rfl failed
  written _ := by
    refine ⟨b.take (Utf8.encode text ++ [0]).length, _, _, ?_, rfl, ?_, rfl⟩
    · rw [List.take_append_drop]
    · rw [List.length_take, List.length_append, List.length_singleton]
      omega
  read _ := by
    rw [List.append_assoc, List.singleton_append, Option.map_some, beforeZero_encode_append]
  whole_iff _ := by
    rw [List.append_assoc, List.singleton_append, Option.map_some, Option.some_inj,
      beforeZero_eq_encode_iff]

theorem handsOut_of_not_room (none : ¬ HasRoom buffer text) :
    HandsOut text buffer .invalidParameter buffer where
  success_iff := iff_of_false nofun none
  refused _ := ⟨rfl, rfl⟩
  written := nofun
  read := nofun
  whole_iff := nofun

theorem Buffer.write_of_room {b : Buffer} (room : (Utf8.encode text).length < b.length) :
    b.write text
      = .ok (Utf8.encode text ++ [0] ++ b.drop (Utf8.encode text ++ [0]).length) := by
  rw [write, if_neg]
  rw [List.length_append, List.length_singleton]
  omega

theorem Buffer.write_of_not_room {b : Buffer} (none : ¬ (Utf8.encode text).length < b.length) :
    b.write text
      = .error (.parameter (.bufferTooSmall b.length (Utf8.encode text ++ [0]).length)) := by
  rw [write, if_pos]
  rw [List.length_append, List.length_singleton]
  omega

/-- To leave a text is to hand it out, in whatever buffer. -/
theorem ensures_leaveText : Ensures (Call.leaveText name text) (s, buffer) fun r w =>
    HandsOut text buffer (.ofOutcome r) w.2 := by
  refine ensures_value_bind ?_
  cases buffer with
  | none => exact fun _ => handsOut_of_not_room nofun
  | some b =>
    refine ensures_of_ok_bind rfl ?_
    by_cases room : (Utf8.encode text).length < b.length
    · rw [Buffer.write_of_room room]
      exact fun _ => handsOut_of_room room
    · rw [Buffer.write_of_not_room room]
      refine fun _ => handsOut_of_not_room ?_
      rintro ⟨_, ⟨⟩, enough⟩
      exact room enough

/-! ### Calls -/

/-- A call hands out a text, in whatever buffer. -/
def Tells (s : Session) (call : Traced (Exchange (Option Buffer)) Unit) (text : String) : Prop :=
  ∀ buffer, HandsOut text buffer (s.run buffer call).status (s.run buffer call).place

variable {h : Option Handle} {k : Calculator Float}

/-- A text of the calculator behind a handle is told. -/
theorem tells_of_calculator (there : s.calculators.get? h = some k)
    (text : Calculator Float → String) :
    Tells s (Call.calculator h >>= fun k => Call.leaveText name (text k)) (text k) := by
  intro buffer
  have ends : Ensures (Call.calculator h >>= fun k => Call.leaveText name (text k)) (s, buffer)
      fun r w => HandsOut (text k) buffer (.ofOutcome r) w.2 := by
    refine Call.ensures_calculator_bind (fun k' there' => ?_) fun missing => ?_
    · cases there.symm.trans there'
      exact ensures_leaveText
    · cases there.symm.trans missing
  exact ends.outcome

/-! ### Zeros -/

/-- Only the name that a calculator for tests was given can put zeros into its name. -/
theorem zeroFree_calculator_name_iff (k : Calculator Float) :
    ZeroFree k.name ↔ ∀ d, k.kernel = .dummy d → ZeroFree d.name := by
  rw [Calculator.name]
  cases k.kernel with
  | sortedDistances distances =>
    have words : ZeroFree "sorted distances vector" := by decide
    exact iff_of_true words nofun
  | dummy d =>
    refine (zeroFree_description_iff d).trans ⟨?_, fun names => names d rfl⟩
    rintro named _ ⟨⟩
    exact named

theorem Calculator.parameters_of_create {locate : Json.Locator} {name parameters : String}
    (created : Calculator.create locate name parameters = .ok k) : k.parameters = parameters := by
  rw [Calculator.create, except_bind_eq_ok] at created
  obtain ⟨kernel, -, created⟩ := created
  obtain ⟨-, -, created⟩ := except_bind_eq_ok.1 created
  cases created
  rfl

/-- The parameters are the text that was given. -/
theorem AskedFor.zeroFree_parameters {locate : Json.Locator} {name parameters : Option (List UInt8)}
    (asked : AskedFor locate name parameters k) : ZeroFree k.parameters := by
  obtain ⟨_, readParameters, created⟩ := asked
  rw [Calculator.parameters_of_create created]
  exact zeroFree_of_readText readParameters

/-! ### Calculators -/

/-- A caller that asks for the texts of a calculator is told them. Its parameters have no zeros, and
its name has none either if it was not given one with the name of a calculator for tests. -/
structure Introduced (s : Session) (h : Option Handle) (k : Calculator Float) : Prop where
  name : Tells s (Call.calculatorName h) k.name
  parameters : Tells s (Call.calculatorParameters h) k.parameters
  zeroFree_parameters : ZeroFree k.parameters
  zeroFree_name_iff : ZeroFree k.name ↔ ∀ d, k.kernel = .dummy d → ZeroFree d.name

/-- Texts of calculators that cross the boundary. Whatever calls were made since a handle was
returned, unless they freed it, its calculator is the one that was asked for, and a call for its name
or for its parameters succeeds exactly when the buffer has room for all of the text and for a zero.
Then it writes nothing behind them; otherwise it writes nothing at all. The parameters are always
read whole. The name is read up to its first zero: it is whole unless it repeats a name that the
parameters gave to a calculator for tests, and that name has a zero. -/
theorem exists_introduced {s : Session} {locate : Json.Locator}
    {name parameters : Option (List UInt8)} {h : Handle} {calls : List MadeCall}
    (made : ((MadeCall.createCalculator locate name parameters).reply s).place = some h)
    (kept : ∀ c ∈ calls, ¬ c.Frees (some h)) :
    ∃ k, AskedFor locate name parameters k ∧
      Introduced (((MadeCall.createCalculator locate name parameters).reply s).session.after calls)
        (some h) k := by
  obtain ⟨k, asked, found⟩ := exists_of_createCalculator made
  have there := Session.get?_after calls _ found kept
  refine ⟨k, asked, ?_, ?_, asked.zeroFree_parameters, zeroFree_calculator_name_iff k⟩
  · exact tells_of_calculator there Calculator.name
  · exact tells_of_calculator there Calculator.parameters

/-- The texts of sorted distances after the calculator was asked for its name without a buffer. -/
theorem exists_introduced_sortedDistances :
    let name := Utf8.encode "sorted_distances" ++ [0]
    let parameters := Utf8.encode "\x7b\"cutoff\": 2, \"max_neighbors\": 3\x7d" ++ [0]
    let made : Reply (Option Handle) :=
      (MadeCall.createCalculator .unknown (some name) (some parameters)).reply .initial
    let calls : List MadeCall := [.calculatorName (some 0) none, .freeCalculator none]
    made.place = some 0 ∧ (∀ c ∈ calls, ¬ c.Frees (some 0)) ∧
      ∃ k, AskedFor .unknown (some name) (some parameters) k ∧
        Introduced (made.session.after calls) (some 0) k := by
  intro name parameters made calls
  have handle : made.place = some 0 := by decide +kernel
  have kept : ∀ c ∈ calls, ¬ c.Frees (some 0) := by simp [calls, MadeCall.Frees]
  exact ⟨handle, kept, exists_introduced handle kept⟩

/-- A name can be cut: the parameters of a calculator for tests can give it one with a zero. -/
theorem not_forall_name_whole :
    ¬ ∀ (s : Session) (locate : Json.Locator) (name parameters : Option (List UInt8)) (h : Handle)
      (k : Calculator Float) (buffer : Option Buffer),
      let made := (MadeCall.createCalculator locate name parameters).reply s
      let told := (MadeCall.calculatorName (some h) buffer).reply made.session
      made.place = some h → made.session.calculators.get? (some h) = some k →
        HasRoom buffer k.name → told.place.map beforeZero = some (Utf8.encode k.name) := by
  intro whole
  let name := Utf8.encode "dummy_calculator" ++ [0]
  let parameters := Utf8.encode
    "\x7b\"cutoff\": 1, \"delta\": 0, \"name\": \"a\\u0000b\", \"gradients\": false\x7d" ++ [0]
  let made : Reply (Option Handle) :=
    (MadeCall.createCalculator .unknown (some name) (some parameters)).reply .initial
  have handle : made.place = some 0 := by decide +kernel
  obtain ⟨k, -, there⟩ := exists_of_createCalculator handle
  have zero : (made.session.calculators.get? (some 0)).any fun k => decide ¬ ZeroFree k.name := by
    decide +kernel
  rw [there, Option.any_some, decide_eq_true_eq] at zero
  have room : HasRoom (some (List.replicate ((Utf8.encode k.name).length + 1) 1)) k.name := by
    refine ⟨_, rfl, ?_⟩
    rw [List.length_replicate]
    exact Nat.lt_succ_self _
  have tells : Tells made.session (Call.calculatorName (some 0)) k.name :=
    tells_of_calculator there Calculator.name
  have told := tells (some (List.replicate ((Utf8.encode k.name).length + 1) 1))
  have success := told.success_iff.2 room
  exact zero ((told.whole_iff success).1 (whole _ .unknown _ _ _ _ _ handle there room))

end Atomistic.Foreign
