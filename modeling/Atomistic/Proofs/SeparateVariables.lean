import Atomistic.Proofs.DensifyTables
import Atomistic.Proofs.Meaning
import Atomistic.Proofs.PartialCalculation
import Mathlib.Data.List.Lattice

/-!
# Variables of their own axis

The features of a kernel have other variables than its environments and its gradient rows. Moving
variables takes them from one axis and adds them to the other one, so no call ever puts a variable
on two of them. This is why moving variables can only fail by what is asked for: a list of names
that has a name twice, or one that no axis has. The other errors, and those that a descriptor in a
bad state would make, do not happen to descriptors that come from calls.
-/

namespace Atomistic

open Traced

variable {σ α : Type} [Scalar α]

namespace Descriptor

/-- The features have no variable of the environments and none of the gradient rows. -/
structure Separate (d : Descriptor α) : Prop extends d.Sound where
  disjoint : d.environments.names.Disjoint d.features.names
  separate : ∀ g, d.gradients = some g → g.labels.names.Disjoint d.features.names

variable {p : Partition} {d d' : Descriptor α}

/-! ### Moving variables -/

theorem MovedToEnvironments.separate (h : MovedToEnvironments p d d') (sep : d.Separate) :
    d'.Separate where
  toShaped := h.shaped sep.toShaped
  rooted := h.rooted sep.toShaped sep.rooted
  disjoint := (h.wellFormed ⟨sep.toShaped, sep.disjoint⟩).disjoint
  separate g' hg' := by
    obtain ⟨g, hg, split⟩ := exists_of_rel h.gradients hg'
    have names := (sep.gradients g hg).names
    rw [split.names, h.feature_names]
    intro name there stays
    have feature : name ∈ d.features.names := h.parts.keptOf_subset rfl stays
    rcases List.mem_append.1 there with there | there
    · rcases List.mem_append.1 there with there | moves
      · exact sep.separate g hg (names.subset there) feature
      · exact h.parts.disjoint_names moves stays
    · exact sep.separate g hg (List.mem_of_mem_drop there) feature

theorem MovedToFeatures.separate (h : MovedToFeatures p d d') (sep : d.Separate) :
    d'.Separate where
  toShaped := h.shaped sep.toShaped
  rooted := h.rooted sep.toShaped
  disjoint := (h.wellFormed ⟨sep.toShaped, sep.disjoint⟩).disjoint
  separate g' hg' := by
    obtain ⟨g, hg, merged⟩ := exists_of_rel h.gradients hg'
    obtain ⟨suffix, hsuffix⟩ := (sep.gradients g hg).names
    have drop : g.labels.names.drop d.environments.size = suffix := by
      rw [← hsuffix]
      exact List.drop_left
    have whole : (d.environments.names ++ suffix).Nodup := hsuffix ▸ g.labels.names_valid.nodup
    have beyond := (List.nodup_append'.1 whole).2.2
    rw [merged.names, h.feature_names, drop]
    intro name there feature
    have old : name ∈ g.labels.names := by
      rw [← hsuffix]
      exact List.mem_append.2 ((List.mem_append.1 there).imp_left (h.parts.keptOf_subset rfl ·))
    rcases List.mem_append.1 feature with moves | feature
    · have environment : name ∈ d.environments.names := h.parts.movedOf_subset rfl moves
      rcases List.mem_append.1 there with stays | there
      · exact h.parts.disjoint_names moves stays
      · exact beyond environment there
    · exact sep.separate g hg old feature

theorem Separate.densify (sep : d.Separate) (wanted : List String) :
    Ensures (densify wanted) d fun _ d' => d'.Separate := by
  refine ensures_mono (ensures_densify wanted d) ?_
  rintro r d' (rfl | ⟨-, p, moved⟩)
  · exact sep
  · exact moved.separate sep

theorem Separate.densifyToFeatures (sep : d.Separate) (wanted : List String) :
    Ensures (densifyToFeatures wanted) d fun _ d' => d'.Separate := by
  refine ensures_mono (ensures_densifyToFeatures wanted d) ?_
  rintro r d' (rfl | ⟨-, p, moved⟩)
  · exact sep
  · exact moved.separate sep

end Descriptor

/-! ### Calculations -/

section Calculations

variable [AtomicSystem σ α]

/-- The variables of the features of a kernel. -/
def Kernel.featureNames : Kernel α → List String
  | sortedDistances _ => ["neighbor"]
  | dummy _ => ["index_delta", "x_y_z"]

omit [Scalar α] in
theorem Kernel.names_of_features {k : Kernel α} {t : Labels} (h : k.features = .ok t) :
    t.names = k.featureNames := by
  cases k with
  | sortedDistances k =>
    obtain ⟨rows, -, h⟩ := except_bind_eq_ok.1 h
    exact (Labels.ofRows_eq_ok.1 h).1
  | dummy k => exact (Labels.ofRows_eq_ok.1 h).1

/-- The tables of a descriptor have the variables that a kernel gives them. -/
structure Descriptor.NamedBy (k : Kernel α) (d : Descriptor α) : Prop where
  environments : d.environments.names = k.strategy.names
  features : d.features.names = k.featureNames
  gradients : ∀ g, d.gradients = some g →
    k.computesGradients = true ∧ g.labels.names = k.strategy.gradientNames

omit [Scalar α] in
/-- The features of a kernel have variables of their own. Those of sorted distances number the
neighbors, which gradient rows would do too, but there are none. -/
theorem Descriptor.NamedBy.separate {k : Kernel α} {d : Descriptor α} (h : d.NamedBy k)
    (sound : d.Sound) : d.Separate := by
  refine ⟨sound, ?_, fun g hg => ?_⟩
  · rw [h.environments, h.features]
    cases k <;> simp [Kernel.strategy, Strategy.names, Kernel.featureNames]
  · obtain ⟨computed, names⟩ := h.gradients g hg
    rw [names, h.features]
    cases k with
    | sortedDistances k => cases computed
    | dummy k =>
      simp [Kernel.strategy, Strategy.gradientNames, Strategy.names, Kernel.featureNames]

namespace Calculator

variable (c : Calculator α)

theorem answers_ready_named (samples features : Selection) :
    Answers (c.ready samples features : Traced (Systems σ) _) (Descriptor.NamedBy c.kernel) := by
  refine answers_after fun systems => answers_bind (c.answers_environments samples) ?_
  intro environments environment_names
  refine answers_bind (p := fun t => t.names = c.kernel.featureNames) ?_ ?_
  · refine answers_ofExcept fun t ht => ?_
    obtain ⟨all, hall, ht⟩ := except_bind_eq_ok.1 ht
    exact (Selection.select_names ht).trans (Kernel.names_of_features hall)
  intro features feature_names
  refine answers_after fun _ => ?_
  unfold prepare
  split
  · rw [Descriptor.prepare_eq]
    exact answers_pure ⟨environment_names, feature_names, nofun⟩
  · next having =>
    refine answers_bind (Strategy.answers_gradientNames _ environments) fun found names => ?_
    cases found with
    | none => exact answers_throw _
    | some gradients =>
      refine answers_ofExcept fun d hd => ?_
      rw [Descriptor.prepareWithGradients_eq] at hd
      obtain ⟨-, rfl⟩ := Descriptor.preparedWithGradients_eq_ok.1 hd
      refine ⟨environment_names, feature_names, ?_⟩
      rintro g ⟨⟩
      exact ⟨by simpa using having, names gradients rfl⟩

theorem answers_ready_sound (samples features : Selection) :
    Answers (c.ready samples features : Traced (Systems σ) _) Descriptor.Sound := by
  refine answers_after fun systems => answers_bind (c.answers_environments samples) ?_
  intro environments names
  refine answers_after fun features => answers_after fun _ => ?_
  exact c.answers_prepare .new names

end Calculator

/-- Kernels leave the tables of a descriptor as they are. -/
theorem Kernel.answers_fill_labels (k : Kernel α) (workers : Workers) (d : Descriptor α) :
    Answers (k.fill workers d : Traced (Systems σ) _) fun left => left.1.labels? = d.labels? := by
  have written (rows : List (List α)) :
      ({ d with values := d.values.write rows }).labels? = d.labels? := by
    funext axis
    cases axis <;> rfl
  cases k with
  | sortedDistances k => exact answers_after fun rows => answers_pure (written rows)
  | dummy k =>
    refine answers_after fun found => ?_
    dsimp only
    split
    · exact answers_pure (written _)
    · refine answers_pure ?_
      funext axis
      cases axis <;> simp [Descriptor.labels?, Function.comp_def]

omit [Scalar α] [AtomicSystem σ α] in
/-- Whether variables are separate is seen from the tables. -/
theorem Descriptor.Separate.of_labels {d d' : Descriptor α} (sep : d.Separate) (sound : d'.Sound)
    (same : d'.labels? = d.labels?) : d'.Separate := by
  have environments : d'.environments = d.environments :=
    Option.some.inj (congrFun same .environments)
  have features : d'.features = d.features := Option.some.inj (congrFun same .features)
  refine ⟨sound, ?_, fun g' hg' => ?_⟩
  · rw [environments, features]
    exact sep.disjoint
  · have labels : d.gradients.map (·.labels) = some g'.labels :=
      (congrFun same .gradients).symm.trans (congrArg (Option.map Gradients.labels) hg')
    obtain ⟨g, hg, glabels⟩ := Option.map_eq_some_iff.1 labels
    rw [features, ← glabels]
    exact sep.separate g hg

namespace Calculator

variable (c : Calculator α)

theorem answers_ready_separate (samples features : Selection) :
    Answers (c.ready samples features : Traced (Systems σ) _) Descriptor.Separate :=
  ((c.answers_ready_named samples features).and (c.answers_ready_sound samples features)).imp
    fun _ h => h.1.separate h.2

end Calculator

theorem Kernel.answers_fill_separate (k : Kernel α) (workers : Workers) {d : Descriptor α}
    (sep : d.Separate) :
    Answers (k.fill workers d : Traced (Systems σ) _) fun left => left.1.Separate :=
  ((k.answers_fill workers sep.toSound).and (k.answers_fill_labels workers d)).imp
    fun _ h => sep.of_labels h.1 h.2

end Calculations

/-! ### Runs -/

theorem Descriptor.separate_new : (new : Descriptor α).Separate where
  toSound := sound_new
  disjoint := by simp [new, Labels.empty]
  separate := by rintro g ⟨⟩

namespace Call

theorem keeps_separate : Keeps (Descriptor.Separate : Descriptor α → Prop) where
  create := Descriptor.separate_new
  compute c workers options systems _ sep := c.compute_keeps workers c.answers_ready_separate
    (fun _ sep => c.kernel.answers_fill_separate workers sep)
    (fun _ computed sep => sep.of_labels (sep.toSound.withComputed computed) rfl) options systems sep
  densify wanted _ sep := (sep.densify wanted).outcome
  densifyToFeatures wanted _ sep := (sep.densifyToFeatures wanted).outcome

/-- Moving variables in a descriptor that comes from any calls fails when a name is asked for twice
or is a variable of no axis, and for no other reason. -/
theorem densify_run (calls : List (Call α)) : ∀ d ∈ run calls, ∀ wanted : List String,
    ∀ move ∈ [Descriptor.densify wanted, Descriptor.densifyToFeatures wanted],
      let known := d.features.names ++ d.environments.names
      ((∃ e, (move.outcome d).1 = .error e) ↔
        ¬wanted.Nodup ∨ ∃ name ∈ wanted, name ∉ known) ∧
      ∀ e, (move.outcome d).1 = .error e → Partition.Mistake wanted known e := by
  intro d hd wanted move hmove known
  have sep : d.Separate := keeps_separate.run calls d hd
  obtain ⟨source, target, answer, apart, both⟩ : ∃ source target : Labels,
      (move.outcome d).1 = (Partition.chosen wanted source target).map (fun _ => ()) ∧
        source.names.Disjoint target.names ∧
        ∀ name, name ∈ known ↔ name ∈ source.names ++ target.names := by
    simp only [List.mem_cons, List.not_mem_nil, or_false] at hmove
    rcases hmove with rfl | rfl
    · refine ⟨d.features, d.environments, ?_, List.Disjoint.symm sep.disjoint, fun _ => Iff.rfl⟩
      refine (Descriptor.ensures_densify_answer sep.toShaped fun p chosen g hg => ?_).outcome
      have parts := (Partition.chosen_eq_ok chosen).parts
      exact fun name there moves => sep.separate g hg there (parts.movedOf_subset rfl moves)
    · refine ⟨d.environments, d.features, ?_, sep.disjoint, fun name => ?_⟩
      · exact (Descriptor.ensures_densifyToFeatures_answer sep.toShaped sep.rooted).outcome
      · rw [List.mem_append, List.mem_append, or_comm]
  have failed e : (move.outcome d).1 = .error e ↔
      Partition.chosen wanted source target = .error e := by
    rw [answer]
    cases Partition.chosen wanted source target <;> simp [Except.map]
  constructor
  · simp only [failed]
    exact Partition.chosen_eq_error_iff apart both
  · intro e he
    exact Partition.mistake_of_chosen apart (fun name => (both name).1) ((failed e).1 he)

/-- A calculation for two atoms, with its gradients. -/
def dimerCalls : List (Call Float) := [.create, .compute 0 (sums true) .inOrder #[dimer] .all]

/-- The atoms that move are not a variable of its descriptor, the centers are. -/
theorem densify_run_dimerCalls : ∃ d ∈ run dimerCalls,
    (∃ e, ((Descriptor.densifyToFeatures ["center", "neighbor"]).outcome d).1 = .error e) ∧
      ∀ e, ((Descriptor.densifyToFeatures ["center", "structure"]).outcome d).1 ≠ .error e := by
  obtain ⟨full, given, environments, features⟩ := givesAround_dimer .inOrder
  have given := ((sums true).gives_eq_givesAround .inOrder .all .all Systems.warmed_self .new).1.trans
    given
  have hd : full ∈ run dimerCalls := by
    rw [← (Calculator.gives_eq_ok.1 given).2]
    exact List.mem_singleton_self _
  have names : full.features.names ++ full.environments.names
      = ["index_delta", "x_y_z", "structure", "center"] := by
    rw [environments, features]
    rfl
  refine ⟨full, hd, ?_, fun e failed => ?_⟩
  · refine (densify_run dimerCalls full hd _ _ (List.mem_of_mem_tail List.mem_cons_self)).1.2
      (.inr ⟨"neighbor", by simp, ?_⟩)
    rw [names]
    decide
  · have mistaken := (densify_run dimerCalls full hd _ _
      (List.mem_of_mem_tail List.mem_cons_self)).1.1 ⟨e, failed⟩
    rw [names] at mistaken
    revert mistaken
    decide

end Call

end Atomistic
