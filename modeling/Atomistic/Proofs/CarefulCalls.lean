import Atomistic.Proofs.DensifySteps
import Atomistic.Proofs.KeptRelations
import Atomistic.Proofs.Sessions

/-!
# Calls that fail carefully

A call first asks for all that it needs, and only then changes something. So when it fails, nothing
was changed; when it goes well, the text of the last error stays. The exception is a calculation: it
changes the descriptor that it is made on and what callbacks keep behind their systems, even if it
fails. It does not touch anything else, in particular not the callbacks themselves.
-/

namespace Atomistic.Foreign

open Traced

namespace Call

variable {β γ δ : Type}

/-! ### Questions -/

/-- The computation changes nothing. -/
def Asks (m : Traced (Exchange β) γ) : Prop := ∀ v, Ensures m v fun _ w => w = v

theorem asks_ofExcept (x : Except Error γ) : Asks (Traced.ofExcept x : Traced (Exchange β) γ) :=
  fun _ => ensures_ofExcept rfl

theorem asks_session : Asks (session : Traced (Exchange β) Session) := fun _ _ => rfl

theorem asks_value : Asks (value : Traced (Exchange β) (Exchange β)) := fun _ _ => rfl

theorem asks_calculator (h : Option Handle) :
    Asks (calculator h : Traced (Exchange β) (Calculator Float)) :=
  fun _ => ensures_session_bind (ensures_ofExcept rfl)

theorem asks_descriptor (h : Option Handle) :
    Asks (descriptor h : Traced (Exchange β) (Descriptor Float)) :=
  fun _ => ensures_session_bind (ensures_ofExcept rfl)

/-- After a question everything is as before. -/
theorem Asks.ensures_bind {m : Traced (Exchange β) γ} {f : γ → Traced (Exchange β) δ}
    {v : Exchange β} {post : Except Error δ → Exchange β → Prop} (h : Asks m)
    (ok : ∀ b, Ensures (f b) v post) (error : ∀ e, post (.error e) v) :
    Ensures (m >>= f) v post := by
  refine Traced.ensures_bind (ensures_mono (h v) ?_)
  rintro r _ rfl
  cases r with
  | ok b => exact ok b
  | error e => exact error e

/-! ### Careful calls -/

/-- The text of the last error stays, and if the computation fails so does everything else. -/
def Careful (m : Traced (Exchange β) γ) : Prop :=
  ∀ v, Ensures m v fun r w => w.1.lastError = v.1.lastError ∧ ∀ e, r = .error e → w = v

theorem Asks.careful {m : Traced (Exchange β) γ} (h : Asks m) : Careful m := fun v =>
  ensures_mono (h v) fun _ _ same => ⟨by rw [same], fun _ _ => same⟩

/-- Questions may come before. -/
theorem Asks.careful_bind {m : Traced (Exchange β) γ} {f : γ → Traced (Exchange β) δ} (h : Asks m)
    (rest : ∀ b, Careful (f b)) : Careful (m >>= f) := fun v =>
  h.ensures_bind (fun b => rest b v) fun _ => ⟨rfl, fun _ _ => rfl⟩

theorem careful_leave (result : β) : Careful (leave result) := fun _ _ => ⟨rfl, nofun⟩

theorem careful_change {f : Session → Session} (h : ∀ s, (f s).lastError = s.lastError) :
    Careful (change f : Traced (Exchange β) Unit) := fun v _ => ⟨h v.1, nofun⟩

/-- Work with a descriptor is careful if it changes nothing when it fails. -/
theorem careful_onDescriptor {m : Traced (Descriptor Float) γ} (h : Option Handle)
    (fails : ∀ d, Ensures m d fun r d' => ∀ e, r = .error e → d' = d) :
    Careful (onDescriptor h m : Traced (Exchange β) γ) := by
  rintro ⟨s, place⟩
  refine ensures_descriptor_bind (fun d hd => ?_) fun _ => ⟨rfl, fun _ _ => rfl⟩
  refine ensures_focus (ensures_mono (fails d) fun r d' same => ⟨rfl, fun e he => ?_⟩)
  dsimp only
  rw [same e he, Store.set_self hd]

/-! ### The calls -/

section Calls

variable {name parameters format : Option (List UInt8)} {calculator descriptor : Option Handle}
  {missing : List String} {axis : Axis} {pointers : Option (List (Option (List UInt8)))}
  {count : Nat} {on : Bool} {locate : Json.Locator}

theorem careful_leaveText (name text : String) : Careful (leaveText name text) :=
  asks_value.careful_bind fun _ => (asks_ofExcept _).careful_bind fun _ =>
    (asks_ofExcept _).careful_bind fun _ => careful_leave _

/-- A calculator is created last of all, when nothing can fail any more. -/
theorem ensures_createCalculator {v : Exchange (Option Handle)}
    {post : Except Error Unit → Exchange (Option Handle) → Prop}
    (ok : ∀ c, post (.ok ())
      ({ v.1 with calculators := v.1.calculators.insert c }, some v.1.calculators.next))
    (error : ∀ e, post (.error e) v) : Ensures (createCalculator locate name parameters) v post := by
  refine (asks_ofExcept _).ensures_bind (fun name => ?_) error
  refine (asks_ofExcept _).ensures_bind (fun parameters => ?_) error
  refine (asks_ofExcept _).ensures_bind (fun name => ?_) error
  refine (asks_ofExcept _).ensures_bind (fun parameters => ?_) error
  refine (asks_ofExcept _).ensures_bind (fun c => ?_) error
  exact ensures_session_bind fun _ => ok c

theorem careful_createCalculator : Careful (createCalculator locate name parameters) :=
  fun _ => ensures_createCalculator (fun _ => ⟨rfl, nofun⟩) fun _ => ⟨rfl, fun _ _ => rfl⟩

theorem careful_freeCalculator : Careful (freeCalculator calculator) := careful_change fun _ => rfl

theorem careful_calculatorName : Careful (calculatorName calculator) :=
  (asks_calculator _).careful_bind fun _ => careful_leaveText _ _

theorem careful_calculatorParameters : Careful (calculatorParameters calculator) :=
  (asks_calculator _).careful_bind fun _ => careful_leaveText _ _

theorem careful_createDescriptor : Careful createDescriptor :=
  asks_session.careful_bind fun _ _ _ => ⟨rfl, nofun⟩

theorem careful_freeDescriptor : Careful (freeDescriptor descriptor) := careful_change fun _ => rfl

theorem careful_values : Careful (values descriptor missing) :=
  (asks_descriptor _).careful_bind fun _ => (asks_ofExcept _).careful_bind fun _ =>
    (asks_ofExcept _).careful_bind fun _ => careful_leave _

theorem careful_gradients : Careful (gradients descriptor missing) :=
  (asks_descriptor _).careful_bind fun _ => (asks_ofExcept _).careful_bind fun _ => careful_leave _

theorem careful_labels : Careful (labels descriptor axis missing) :=
  (asks_descriptor _).careful_bind fun _ => (asks_ofExcept _).careful_bind fun _ => careful_leave _

theorem careful_names : Careful (names descriptor axis) := by
  refine (asks_descriptor _).careful_bind fun d => asks_value.careful_bind fun v => ?_
  refine (asks_ofExcept _).careful_bind fun place => ?_
  dsimp only
  split
  · exact (asks_ofExcept (.error _)).careful_bind fun _ => careful_leave _
  · exact careful_leave _

theorem careful_densify : Careful (densify descriptor pointers count) := by
  refine careful_onDescriptor descriptor fun d => ?_
  refine ensures_ofExcept_bind (fun wanted _ => ?_) fun _ _ _ _ => rfl
  refine ensures_mono (Descriptor.ensures_densify wanted d) ?_
  rintro _ d' (same | ⟨rfl, -⟩) e he
  · exact same
  · cases he

theorem careful_densifyToFeatures : Careful (densifyToFeatures descriptor pointers count) := by
  refine careful_onDescriptor descriptor fun d => ?_
  refine ensures_ofExcept_bind (fun wanted _ => ?_) fun _ _ _ _ => rfl
  refine ensures_mono (Descriptor.ensures_densifyToFeatures wanted d) ?_
  rintro _ d' (same | ⟨rfl, -⟩) e he
  · exact same
  · cases he

theorem careful_lastError : Careful lastError :=
  asks_session.careful_bind fun _ => careful_leave _

theorem careful_listen : Careful (listen on) := careful_change fun _ => rfl

theorem careful_measure : Careful (measure on) := careful_change fun _ => rfl

theorem careful_clearProfile : Careful clearProfile := careful_change fun _ => rfl

theorem careful_profile : Careful (profile format) := by
  refine (asks_ofExcept _).careful_bind fun format => asks_value.careful_bind fun v => ?_
  refine (asks_ofExcept _).careful_bind fun _ => asks_session.careful_bind fun s => ?_
  refine (asks_ofExcept _).careful_bind fun text => ?_
  dsimp only
  split
  · exact careful_leaveText _ _
  · exact careful_leaveText _ _
  · exact careful_leaveText _ _
  · exact (asks_ofExcept (.error _)).careful_bind fun _ => careful_leaveText _ _

end Calls

end Call

/-! ### Calculations -/

section Calculations

variable {σ α : Type}

theorem ForeignSystem.ensures_computeNeighbors (cutoff : α) (s : ForeignSystem σ α) :
    Ensures (computeNeighbors cutoff) s fun _ s' => s'.callbacks = s.callbacks := by
  refine ensures_value_bind (ensures_ofExcept_bind (fun callback _ => ?_) fun _ _ => rfl)
  exact ensures_replay_bind (ensures_setValue_bind (ensures_ofExcept rfl))

/-- The callbacks of systems, which stand in the memory of the caller. -/
def tables (systems : Systems (ForeignSystem σ α)) : Array (Callbacks σ α) :=
  systems.map (·.callbacks)

/-- Having neighbors computed changes what callbacks keep, but no callback. -/
theorem ensures_tables [Scalar α] (cutoff : α) (i : Nat) (systems : Systems (ForeignSystem σ α)) :
    Ensures (Systems.computeNeighbors cutoff i) systems fun _ systems' =>
      tables systems' = tables systems := by
  refine ensures_atIndex (fun s hs => ?_) fun _ => rfl
  refine ensures_mono (s.ensures_computeNeighbors cutoff) fun _ s' same => ?_
  have there : (tables systems)[i]? = some s'.callbacks := by
    rw [tables, Array.getElem?_map, hs, same]
    rfl
  rw [tables, Array.map_setIfInBounds]
  exact setIfInBounds_self there

/-- The first systems are put back where they were taken. -/
theorem tables_putBack {all systems : Systems (ForeignSystem σ α)} {count : Nat}
    (same : tables systems = tables (all.extract 0 count)) :
    tables (systems ++ all.extract systems.size all.size) = tables all := by
  have size : systems.size = min count all.size := by
    simpa [tables] using congrArg Array.size same
  unfold tables at same ⊢
  rw [Array.map_append, same, ← Array.map_append, size]
  congr 1
  ext i
  · simp only [Array.size_append, Array.size_extract]
    omega
  · simp only [Array.getElem_append, Array.getElem_extract, Array.size_extract]
    split <;> congr 1 <;> omega

/-- What a calculation leaves as it was, whether it fails or not. -/
structure Untouched (descriptor : Option Handle)
    (v w : Exchange (Option (Systems (ForeignSystem σ Float)))) : Prop where
  lastError : w.1.lastError = v.1.lastError
  calculators : w.1.calculators = v.1.calculators
  descriptors : ∀ h, h ≠ descriptor → w.1.descriptors.get? h = v.1.descriptors.get? h
  tables : w.2.map tables = v.2.map tables

theorem Untouched.refl (descriptor : Option Handle)
    (v : Exchange (Option (Systems (ForeignSystem σ Float)))) : Untouched descriptor v v :=
  ⟨rfl, rfl, fun _ _ => rfl, rfl⟩

theorem Call.ensures_compute_untouched (calculator descriptor : Option Handle) (workers : Workers)
    (count : Nat) (options : CalculationOptions)
    (v : Exchange (Option (Systems (ForeignSystem σ Float)))) :
    Ensures (Call.compute calculator descriptor workers count options) v fun _ w =>
      Untouched descriptor v w := by
  obtain ⟨s, place⟩ := v
  refine ensures_compute workers options (fun _ _ => .refl ..) fun c d _ _ => ?_
  have kept : Ensures (c.compute workers options) ((place.getD #[]).extract 0 count, d) fun _ w =>
      Foreign.tables w.1 = Foreign.tables ((place.getD #[]).extract 0 count) :=
    c.ensures_compute_systems
      (fun v => Foreign.tables v = Foreign.tables ((place.getD #[]).extract 0 count))
      (fun cutoff i v before => ensures_mono (ensures_tables cutoff i v) fun _ _ same =>
        same.trans before) workers options rfl
  refine ensures_mono kept fun _ w same => ?_
  refine ⟨rfl, rfl, fun h other => Store.get?_set_of_ne other _, ?_⟩
  cases place with
  | none => rfl
  | some all => exact congrArg some (tables_putBack same)

end Calculations

end Atomistic.Foreign
