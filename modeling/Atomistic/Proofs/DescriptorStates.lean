import Atomistic.AtomicSystem.Recorded
import Atomistic.Calculator
import Atomistic.Proofs.DescriptorShape
import Atomistic.Proofs.GradientRows

/-!
# Descriptors between calls

A program creates and copies descriptors, has calculators fill them and moves their variables, in
any order, and goes on after calls that failed. A calculation that fails leaves its descriptor in
one of three states: as it was, prepared but not filled, or filled. In all of them, and after every
run of such calls, the arrays fit the tables, gradients come with their labels, and each gradient row
belongs to an environment. The systems may answer whatever they like.
-/

namespace Atomistic

open Traced

variable {σ α : Type}

/-- The arrays of a descriptor fit its tables, and gradient rows belong to its environments. -/
structure Descriptor.Sound (d : Descriptor α) : Prop extends d.Shaped where
  rooted : d.Rooted

theorem Descriptor.Sound.withComputed {d : Descriptor α} (h : d.Sound) (computed : Bool) :
    { d with computed := computed }.Sound :=
  ⟨⟨h.rows, h.columns, h.gradients⟩, h.rooted⟩

/-! ### Rules for workspaces -/

namespace Calculator

variable {β γ : Type} {w : Workspace σ α} {last : Except Error γ → Workspace σ α → Prop}

/-- Work with the systems leaves the descriptor alone, also if it fails. -/
theorem ensures_onSystems_bind {m : Traced (Systems σ) β} {p : β → Prop}
    {f : β → Traced (Workspace σ α) γ} (h : Answers m p)
    (ok : ∀ b systems, p b → Ensures (f b) (systems, w.2) last)
    (error : ∀ e systems, last (.error e) (systems, w.2)) :
    Ensures (onSystems m >>= f) w last := by
  refine ensures_bind (ensures_focus (ensures_mono (h w.1) fun r systems hr => ?_))
  cases r with
  | ok b => exact ok b systems (hr b rfl)
  | error e => exact error e systems

theorem ensures_setDescriptor {d : Descriptor α} {post : Except Error Unit → Workspace σ α → Prop}
    (h : post (.ok ()) (w.1, d)) : Ensures (setDescriptor d) w post :=
  ensures_value_bind (ensures_setValue h)

theorem ensures_setDescriptor_bind {d : Descriptor α} {f : Unit → Traced (Workspace σ α) γ}
    (h : Ensures (f ()) (w.1, d) last) : Ensures (setDescriptor d >>= f) w last :=
  ensures_bind (ensures_setDescriptor h)

end Calculator

/-! ### Selections -/

namespace Selection

theorem atPositions_names {axis : String} {table selected : Labels} {positions : List Nat}
    (h : atPositions axis table positions = .ok selected) : selected.names = table.names := by
  obtain ⟨-, -, h⟩ := except_bind_eq_ok.1 h
  obtain ⟨rows, -, h⟩ := except_bind_eq_ok.1 h
  exact (Labels.ofRows_eq_ok.1 h).1

theorem atLabels_names {axis : String} {table labels selected : Labels}
    (h : atLabels axis table labels = .ok selected) : selected.names = table.names := by
  unfold atLabels at h
  split at h
  · cases h
  · next same =>
    dsimp only at h
    split at h
    · cases h
    · cases h
      exact not_not.1 same

/-- What is selected has the variables of the table it is selected from. -/
theorem select_names {s : Selection} {axis : String} {table selected : Labels}
    (h : s.select axis table = .ok selected) : selected.names = table.names := by
  cases s with
  | all =>
    cases h
    rfl
  | rows positions => exact atPositions_names h
  | values labels => exact atLabels_names h

end Selection

/-! ### Descriptors ready to be filled -/

variable [Scalar α]

namespace Descriptor

theorem sound_new : (new : Descriptor α).Sound where
  rows := rfl
  columns := rfl
  gradients := by rintro g ⟨⟩
  rooted := by rintro g ⟨⟩

theorem sound_prepared (environments features : Labels) :
    (prepared environments features : Descriptor α).Sound where
  rows := rfl
  columns := rfl
  gradients := by rintro g ⟨⟩
  rooted := by rintro g ⟨⟩

theorem preparedWithGradients_eq_ok {environments features gradients : Labels} {d : Descriptor α} :
    preparedWithGradients environments features gradients = .ok d ↔
      environments.names.isPrefixOf gradients.names = true ∧
        { prepared environments features with
          gradients := some ⟨gradients, Dense.zeros gradients.count features.count⟩ } = d := by
  rw [preparedWithGradients]
  split <;> simp [*]

/-- Preparing gradients checks their names, their rows have to be those of the environments. -/
theorem sound_preparedWithGradients {environments features gradients : Labels} {d : Descriptor α}
    (h : preparedWithGradients environments features gradients = .ok d)
    (known : ∀ row ∈ gradients.rows, environments.Roots row) : d.Sound := by
  obtain ⟨start, rfl⟩ := preparedWithGradients_eq_ok.1 h
  refine ⟨⟨rfl, rfl, ?_⟩, ?_⟩
  · rintro g ⟨⟩
    exact ⟨rfl, rfl, List.isPrefixOf_iff_prefix.1 start⟩
  · rintro g ⟨⟩
    exact known

end Descriptor

/-! ### Moving variables -/

namespace Descriptor

variable {d : Descriptor α}

theorem Sound.densify (sound : d.Sound) (wanted : List String) :
    Ensures (densify wanted) d fun _ d' => d'.Sound := by
  refine ensures_mono (ensures_densify wanted d) ?_
  rintro r d' (rfl | ⟨-, p, moved⟩)
  · exact sound
  · exact ⟨moved.shaped sound.toShaped, moved.rooted sound.toShaped sound.rooted⟩

theorem Sound.densifyToFeatures (sound : d.Sound) (wanted : List String) :
    Ensures (densifyToFeatures wanted) d fun _ d' => d'.Sound := by
  refine ensures_mono (ensures_densifyToFeatures wanted d) ?_
  rintro r d' (rfl | ⟨-, p, moved⟩)
  · exact sound
  · exact ⟨moved.shaped sound.toShaped, moved.rooted sound.toShaped⟩

end Descriptor

/-! ### Calculations -/

section Calculations

variable [AtomicSystem σ α]

/-- Kernels give new values to a descriptor, in arrays of the same shape. -/
theorem Kernel.answers_fill (k : Kernel α) (workers : Workers) {d : Descriptor α}
    (sound : d.Sound) :
    Answers (k.fill workers d : Traced (Systems σ) _) fun left => left.1.Sound := by
  have written (rows : List (List α)) : ({ d with values := d.values.write rows }).Sound :=
    ⟨⟨sound.rows, sound.columns, sound.gradients⟩, sound.rooted⟩
  cases k with
  | sortedDistances k => exact answers_after fun rows => answers_pure (written rows)
  | dummy k =>
    refine answers_after fun found => ?_
    dsimp only
    split
    · exact answers_pure (written _)
    · refine answers_pure ⟨⟨sound.rows, sound.columns, ?_⟩, ?_⟩
      · intro g' hg'
        obtain ⟨g, hg, rfl⟩ := Option.map_eq_some_iff.1 hg'
        have shaped := sound.gradients g hg
        exact ⟨shaped.rows, shaped.columns, shaped.names⟩
      · intro g' hg'
        obtain ⟨g, hg, rfl⟩ := Option.map_eq_some_iff.1 hg'
        exact sound.rooted g hg

namespace Calculator

theorem answers_environments (c : Calculator α) (samples : Selection) :
    Answers (c.environments samples : Traced (Systems σ) _) fun t =>
      t.names = c.kernel.strategy.names := by
  refine answers_after fun _ => ?_
  refine answers_bind (Strategy.answers_environments c.kernel.strategy) fun all hall => ?_
  exact answers_ofExcept fun t ht => (Selection.select_names ht).trans hall

theorem answers_prepare (c : Calculator α) (d : Descriptor α) {environments features : Labels}
    (names : environments.names = c.kernel.strategy.names) :
    Answers (c.prepare d environments features : Traced (Systems σ) _) Descriptor.Sound := by
  unfold prepare
  split
  · rw [Descriptor.prepare_eq]
    exact answers_pure (Descriptor.sound_prepared environments features)
  · refine answers_bind (Strategy.answers_gradientsFor _ names) fun found hfound => ?_
    cases found with
    | none => exact answers_throw _
    | some gradients =>
      refine answers_ofExcept fun d hd => ?_
      rw [Descriptor.prepareWithGradients_eq] at hd
      exact Descriptor.sound_preparedWithGradients hd (hfound gradients rfl).2

theorem ensures_computeDirectly (c : Calculator α) (workers : Workers)
    (samples features : Selection) {w : Workspace σ α} (sound : w.2.Sound) :
    Ensures (c.computeDirectly workers samples features) w fun _ w' => w'.2.Sound := by
  have old := sound.withComputed false
  refine ensures_value_bind (ensures_setDescriptor_bind ?_)
  refine ensures_onSystems_bind (c.answers_environments samples) ?_ fun _ _ => old
  intro environments systems names
  refine ensures_ofExcept_bind ?_ fun _ _ => old
  intro features _
  refine ensures_log_bind ?_
  refine ensures_onSystems_bind (c.answers_prepare w.2 names) ?_ fun _ _ => old
  intro prepared systems hprepared
  refine ensures_setDescriptor_bind ?_
  refine ensures_onSystems_bind (c.kernel.answers_fill workers hprepared) ?_ fun _ _ => hprepared
  intro left systems hleft
  refine ensures_setDescriptor_bind (ensures_ofExcept_bind (fun _ _ => ?_) fun _ _ => hleft)
  exact ensures_setDescriptor (hleft.withComputed true)

/-- However a calculation ends, the descriptor is sound. -/
theorem ensures_compute (c : Calculator α) (workers : Workers) (options : CalculationOptions)
    {w : Workspace σ α} (sound : w.2.Sound) :
    Ensures (c.compute workers options) w fun _ w' => w'.2.Sound := by
  obtain ⟨systems, d⟩ := w
  refine ensures_within ?_
  split
  · refine ensures_bind (ensures_ask ?_)
    dsimp only
    cases systems.mapM SimpleSystem.copyOf with
    | error e => exact sound
    | ok copies =>
      dsimp only [andThen, withSystems]
      refine ensures_focus ?_
      exact c.ensures_computeDirectly workers _ _ (w := (copies, d)) sound
  · exact c.ensures_computeDirectly workers _ _ sound

end Calculator

end Calculations

/-! ### Runs -/

/-- A call of a program that holds some descriptors, numbered from 0. -/
inductive Call (α : Type) : Type 1 where
  | create
  | clone (source : Nat)
  | compute {σ : Type} [AtomicSystem σ α] (target : Nat) (calculator : Calculator α)
    (workers : Workers) (systems : Systems σ) (options : CalculationOptions)
  | densify (target : Nat) (wanted : List String)
  | densifyToFeatures (target : Nat) (wanted : List String)

namespace Call

/-- The descriptors after a call, whatever its answer is. A call for a descriptor that is not there
is not made. -/
def apply (held : List (Descriptor α)) : Call α → List (Descriptor α)
  | create => held ++ [.new]
  | clone source => held ++ held[source]?.toList
  | compute target c workers systems options =>
    held.modify target fun d => ((c.compute workers options).outcome (systems, d)).2.1.2
  | densify target wanted => held.modify target fun d => ((Descriptor.densify wanted).outcome d).2.1
  | densifyToFeatures target wanted =>
    held.modify target fun d => ((Descriptor.densifyToFeatures wanted).outcome d).2.1

/-- The descriptors that a program holds after some calls. -/
def run (calls : List (Call α)) : List (Descriptor α) := calls.foldl apply []

theorem forall_mem_modify {β : Type} {p : β → Prop} {f : β → β} (step : ∀ x, p x → p (f x)) :
    ∀ {xs : List β} (i : Nat), (∀ x ∈ xs, p x) → ∀ x ∈ xs.modify i f, p x
  | [], i, _ => by cases i <;> simp
  | y :: xs, 0, h => by
    rw [List.modify_zero_cons, List.forall_mem_cons] at *
    exact ⟨step y h.1, h.2⟩
  | y :: xs, i + 1, h => by
    rw [List.modify_succ_cons, List.forall_mem_cons] at *
    exact ⟨h.1, forall_mem_modify step i h.2⟩

/-- What new descriptors have, and what no call takes away from a descriptor. -/
structure Keeps (p : Descriptor α → Prop) : Prop where
  create : p .new
  compute : ∀ {σ : Type} [AtomicSystem σ α] (c : Calculator α) (workers : Workers)
    (options : CalculationOptions) (systems : Systems σ) (d : Descriptor α), p d →
      p ((c.compute workers options).outcome (systems, d)).2.1.2
  densify : ∀ (wanted : List String) (d : Descriptor α), p d →
    p ((Descriptor.densify wanted).outcome d).2.1
  densifyToFeatures : ∀ (wanted : List String) (d : Descriptor α), p d →
    p ((Descriptor.densifyToFeatures wanted).outcome d).2.1

/-- After a call all descriptors have it, if they had it before. -/
theorem Keeps.apply {p : Descriptor α → Prop} (h : Keeps p) {held : List (Descriptor α)}
    (all : ∀ d ∈ held, p d) (call : Call α) : ∀ d ∈ call.apply held, p d := by
  cases call with
  | create =>
    intro d hd
    rcases List.mem_append.1 hd with hd | hd
    · exact all d hd
    · rw [List.mem_singleton.1 hd]
      exact h.create
  | clone source =>
    intro d hd
    rcases List.mem_append.1 hd with hd | hd
    · exact all d hd
    · exact all d (List.mem_of_getElem? (Option.mem_toList.1 hd))
  | compute target c workers systems options =>
    exact forall_mem_modify (h.compute c workers options systems) target all
  | densify target wanted => exact forall_mem_modify (h.densify wanted) target all
  | densifyToFeatures target wanted =>
    exact forall_mem_modify (h.densifyToFeatures wanted) target all

/-- So all descriptors have it after any calls. -/
theorem Keeps.run {p : Descriptor α → Prop} (h : Keeps p) (calls : List (Call α)) :
    ∀ d ∈ run calls, p d := by
  suffices after : ∀ held : List (Descriptor α), (∀ d ∈ held, p d) →
      ∀ d ∈ calls.foldl Call.apply held, p d from after [] (by simp)
  induction calls with
  | nil => exact fun _ all => all
  | cons call calls ih => exact fun held all => ih _ (h.apply all call)

theorem keeps_sound : Keeps (Descriptor.Sound : Descriptor α → Prop) where
  create := Descriptor.sound_new
  compute c workers options systems d sound :=
    (c.ensures_compute workers options (w := (systems, d)) sound).outcome
  densify wanted _ sound := (sound.densify wanted).outcome
  densifyToFeatures wanted _ sound := (sound.densifyToFeatures wanted).outcome

/-- The tables of a descriptor describe its arrays, and gradients come with their labels. -/
structure Described (d : Descriptor α) : Prop where
  rows : d.values.rows = d.environments.count
  columns : d.values.columns = d.features.count
  together : d.readGradients.isSome ↔ (d.labels? .gradients).isSome
  gradients : ∀ values labels, d.readGradients = some values → d.labels? .gradients = some labels →
    values.rows = labels.count ∧ values.columns = d.features.count ∧
    d.environments.names <+: labels.names ∧
    ∀ row ∈ labels.rows, row.take d.environments.size ∈ d.environments.rows

/-- Every descriptor that a program holds after any calls is described by its tables. -/
theorem described_run (calls : List (Call α)) : ∀ d ∈ run calls, Described d := by
  intro d hd
  have sound : d.Sound := keeps_sound.run calls d hd
  refine ⟨sound.rows, sound.columns, ?_, fun values labels hvalues hlabels => ?_⟩
  · rw [Descriptor.readGradients, Descriptor.labels?, Option.isSome_map, Option.isSome_map]
  · obtain ⟨g, hg, rfl⟩ := Option.map_eq_some_iff.1 hvalues
    obtain ⟨g', hg', rfl⟩ := Option.map_eq_some_iff.1 hlabels
    obtain rfl : g = g' := Option.some.inj (hg.symm.trans hg')
    have shaped := sound.gradients g hg
    exact ⟨shaped.rows, shaped.columns, shaped.names, sound.rooted g hg⟩

/-- A system with one atom that is its own neighbor, and whose position is not told. -/
def loner : RecordedSystem Float where
  size := 1
  species := #[1]
  positions := #[]
  cell := .infinite
  pairs := [⟨0, 0, ⟨0, 0, 0⟩⟩]
  pairsContaining := #[]
  refused := [.positions]
  cutoffs := #[]

/-- A calculation on that system, and what is done with its descriptor afterwards. -/
def lonerCalls : List (Call Float) :=
  [.create, .compute 0 ⟨.dummy ⟨1, 0, "", true⟩, ""⟩ .inOrder #[loner] .all, .clone 0,
    .densifyToFeatures 1 ["center"]]

/-- Neither the descriptor nor its copy can be told from one of a calculation that went well. -/
theorem described_run_lonerCalls :
    ∃ d d' : Descriptor Float, run lonerCalls = [d, d'] ∧ Described d ∧ Described d' := by
  refine ⟨_, _, rfl, ?_, ?_⟩
  · exact described_run lonerCalls _ List.mem_cons_self
  · exact described_run lonerCalls _ (List.mem_cons_of_mem _ List.mem_cons_self)

end Call

end Atomistic
