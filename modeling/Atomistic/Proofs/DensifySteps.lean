import Atomistic.Proofs.ChosenVariables

/-!
# What densification does

A call that moves variables either leaves the descriptor as it was, or ends well with a descriptor
whose tables are those described here. The gradients take their new form before the last table is
built; building it could spoil the descriptor if it failed, but it can not fail: its names are some
of those of an old table, and its rows are distinct.
-/

namespace Atomistic.Descriptor

open Traced

variable {α : Type} [Scalar α]

/-! ### Descriptors before and after -/

/-- The splitting of features into what moves and what stays. -/
def columnSplitting (p : Partition) (features : Labels) : Splitting :=
  .ofParts (features.rows.map fun f => (p.movedOf f, p.keptOf f))

/-- The splitting of environments into what stays and what moves. -/
def rowSplitting (p : Partition) (environments : Labels) : Splitting :=
  .ofParts (environments.rows.map fun e => (p.keptOf e, p.movedOf e))

/-- The parts of a gradient row: the part of its environment that stays with all the rest, and the
part that moves. -/
def gradientParts (p : Partition) (n : Nat) (row : List Int) : List Int × List Int :=
  (p.keptOf (row.take n) ++ row.drop n, p.movedOf (row.take n))

/-- The splitting of gradient rows, in blocks that are those of the environments. -/
def gradientSplitting (p : Partition) (environments gradients : Labels) : Splitting :=
  { Splitting.ofParts (gradients.rows.map (gradientParts p environments.size)) with
    seconds := (rowSplitting p environments).seconds }

/-- Gradients after the variables `moved` were added to the environments, in the given blocks. -/
structure GradientsSplit (s : Splitting) (environmentNames moved : List String)
    (g g' : Gradients α) : Prop where
  names : g'.labels.names = environmentNames ++ moved ++ g.labels.names.drop environmentNames.length
  rows : g'.labels.rows = g.labels.rows.flatMap fun row => s.firsts.toList.map fun block =>
    row.take environmentNames.length ++ block ++ row.drop environmentNames.length
  values : g'.values = splitColumns g.values s

/-- Gradients after variables were taken from the environments. -/
structure GradientsMerged (p : Partition) (environments : Labels) (g g' : Gradients α) :
    Prop where
  known : ∀ row ∈ g.labels.rows, row.take environments.size ∈ environments.rows
  names : g'.labels.names
    = p.keptOf environments.names ++ g.labels.names.drop environments.size
  rows : g'.labels.rows = (gradientSplitting p environments g.labels).firsts.toList
  values : g'.values = splitRows g.values (gradientSplitting p environments g.labels)

/-- The second descriptor is the first one with the variables that `p` moves taken from the features
to the environments. -/
structure MovedToEnvironments (p : Partition) (d d' : Descriptor α) : Prop where
  parts : p.Parts d.features.size
  environment_names : d'.environments.names = d.environments.names ++ p.movedOf d.features.names
  environment_rows : d'.environments.rows = d.environments.rows.flatMap fun e =>
    (columnSplitting p d.features).firsts.toList.map fun block => e ++ block
  feature_names : d'.features.names = p.keptOf d.features.names
  feature_rows : d'.features.rows = (columnSplitting p d.features).seconds.toList
  values : d'.values = splitColumns d.values (columnSplitting p d.features)
  gradients : Option.Rel (GradientsSplit (columnSplitting p d.features) d.environments.names
    (p.movedOf d.features.names)) d.gradients d'.gradients
  computed : d'.computed = d.computed

/-- The second descriptor is the first one with the variables that `p` moves taken from the
environments to the features. -/
structure MovedToFeatures (p : Partition) (d d' : Descriptor α) : Prop where
  parts : p.Parts d.environments.size
  feature_names : d'.features.names = p.movedOf d.environments.names ++ d.features.names
  feature_rows : d'.features.rows = (rowSplitting p d.environments).seconds.toList.flatMap
    fun block => d.features.rows.map fun f => block ++ f
  environment_names : d'.environments.names = p.keptOf d.environments.names
  environment_rows : d'.environments.rows = (rowSplitting p d.environments).firsts.toList
  values : d'.values = splitRows d.values (rowSplitting p d.environments)
  gradients : Option.Rel (GradientsMerged p d.environments) d.gradients d'.gradients
  computed : d'.computed = d.computed

/-! ### Tables that are always built -/

theorem firsts_ofParts (parts : List (List Int × List Int)) :
    (Splitting.ofParts parts).firsts.toList = firstSeen (parts.map (·.1)) := by
  simp [Splitting.ofParts]

theorem seconds_ofParts (parts : List (List Int × List Int)) :
    (Splitting.ofParts parts).seconds.toList = firstSeen (parts.map (·.2)) := by
  simp [Splitting.ofParts]

/-- The variables that stay always have a table. -/
theorem exists_keptTable {t : Labels} {p : Partition} (parts : p.Parts t.size)
    (rows : List (List Int)) (rows_eq : rows = firstSeen (t.rows.map p.keptOf)) :
    ∃ t', Labels.ofRows (p.keptOf t.names) rows = .ok t' := by
  have width : ∀ row ∈ rows, row.length = (p.keptOf t.names).length := by
    intro row hrow
    rw [rows_eq, mem_firstSeen] at hrow
    obtain ⟨r, hr, rfl⟩ := List.mem_map.1 hrow
    rw [parts.length_keptOf (t.width r hr), parts.length_keptOf rfl]
  have nodup : rows.Nodup := rows_eq ▸ nodup_firstSeen _
  exact ⟨⟨_, rows, Partition.namesValid_keptOf parts, width, nodup⟩, Labels.ofRows_eq_ok.2 ⟨rfl, rfl⟩⟩

/-! ### Gradients -/

theorem option_mapM_eq_ok {β γ : Type} {f : β → Except Error γ} {x : Option β} {y : Option γ}
    (h : x.mapM f = .ok y) : Option.Rel (fun b c => f b = .ok c) x y := by
  cases x with
  | none =>
    cases h
    exact .none
  | some b =>
    obtain ⟨c, hc, h⟩ := except_bind_eq_ok.1 h
    cases h
    exact .some hc

theorem option_mapM_eq_error {β γ : Type} {f : β → Except Error γ} {x : Option β} {e : Error}
    (h : x.mapM f = .error e) : ∃ b, x = some b ∧ f b = .error e := by
  cases x with
  | none => cases h
  | some b =>
    rcases except_bind_eq_error.1 h with h | ⟨_, -, h⟩
    · exact ⟨b, rfl, h⟩
    · cases h

theorem rel_mono {β γ : Type} {r q : β → γ → Prop} {x : Option β} {y : Option γ}
    (h : Option.Rel r x y) (imp : ∀ b c, r b c → q b c) : Option.Rel q x y := by
  cases h with
  | none => exact .none
  | some hbc => exact .some (imp _ _ hbc)

theorem exists_of_rel {β γ : Type} {r : β → γ → Prop} {x : Option β} {y : Option γ} {c : γ}
    (h : Option.Rel r x y) (hc : y = some c) : ∃ b, x = some b ∧ r b c := by
  subst hc
  cases h with
  | some hbc => exact ⟨_, rfl, hbc⟩

/-- Related options hold the same of what related values have in common. -/
theorem map_eq_of_rel {β γ δ : Type} {r : β → γ → Prop} {x : Option β} {y : Option γ} {f : β → δ}
    {g : γ → δ} (h : Option.Rel r x y) (eq : ∀ b c, x = some b → r b c → g c = f b) :
    y.map g = x.map f := by
  cases h with
  | none => rfl
  | some hbc => exact congrArg some (eq _ _ rfl hbc)

theorem gradientsToEnvironments_eq_ok {g g' : Gradients α} {s : Splitting}
    {environmentNames moved : List String}
    (h : gradientsToEnvironments g s environmentNames moved = .ok g') :
    GradientsSplit s environmentNames moved g g' := by
  obtain ⟨-, -, h⟩ := except_bind_eq_ok.1 h
  obtain ⟨labels, hlabels, h⟩ := except_bind_eq_ok.1 h
  cases h
  obtain ⟨names, rows⟩ := Labels.ofRows_eq_ok.1 hlabels
  exact ⟨names, rows, rfl⟩

/-- The parts of a gradient row whose environment is there. -/
def knownParts (p : Partition) (environments : Labels) (row : List Int) :
    Except Error (List Int × List Int) :=
  if row.take environments.size ∈ environments.rows then .ok (gradientParts p environments.size row)
  else .error (.internal (.environmentMissing (row.take environments.size)))

theorem knownParts_eq_ok {p : Partition} {environments : Labels} {row : List Int}
    {parts : List Int × List Int} : knownParts p environments row = .ok parts ↔
      row.take environments.size ∈ environments.rows ∧
        gradientParts p environments.size row = parts := by
  rw [knownParts]
  split <;> simp_all

/-- All gradient rows are taken apart before anything else. -/
theorem gradientsToFeatures_eq (g : Gradients α) (p : Partition) (environments : Labels)
    (blocks : Array (List Int)) : gradientsToFeatures g p environments blocks = (do
      let parts ← g.labels.rows.mapM (knownParts p environments)
      let s := { Splitting.ofParts parts with seconds := blocks }
      let names := p.keptOf environments.names ++ g.labels.names.drop environments.size
      return ⟨← Labels.ofRows names s.firsts.toList, splitRows g.values s⟩) := by
  have each : (fun row : List Int => do
      let start := row.take environments.size
      if !environments.index.contains start then
        throw (Error.internal (.environmentMissing start))
      return (p.keptOf start ++ row.drop environments.size, p.movedOf start))
        = knownParts p environments := by
    funext row
    rw [knownParts]
    by_cases there : row.take environments.size ∈ environments.rows
    · simp only [Labels.contains_index.2 there, if_pos there]
      rfl
    · have missing : environments.index.contains (row.take environments.size) = false := by
        rw [← Bool.not_eq_true, Labels.contains_index]
        exact there
      simp only [missing, if_neg there]
      rfl
  rw [← each]
  rfl

theorem gradientsToFeatures_eq_ok {g g' : Gradients α} {p : Partition} {environments : Labels}
    (h : gradientsToFeatures g p environments (rowSplitting p environments).seconds = .ok g') :
    GradientsMerged p environments g g' := by
  rw [gradientsToFeatures_eq] at h
  obtain ⟨parts, hparts, h⟩ := except_bind_eq_ok.1 h
  obtain ⟨labels, hlabels, h⟩ := except_bind_eq_ok.1 h
  cases h
  have each : List.Forall₂ (fun row part => row.take environments.size ∈ environments.rows
      ∧ gradientParts p environments.size row = part) g.labels.rows parts :=
    (except_mapM_eq_ok.1 hparts).imp fun _ _ => knownParts_eq_ok.1
  have hparts : g.labels.rows.map (gradientParts p environments.size) = parts := by
    rw [← List.forall₂_eq_eq_eq, List.forall₂_map_left_iff]
    exact each.imp fun _ _ h => h.2
  subst hparts
  obtain ⟨names, rows⟩ := Labels.ofRows_eq_ok.1 hlabels
  refine ⟨fun row hrow => ?_, names, rows, rfl⟩
  rw [List.forall₂_map_right_iff, List.forall₂_same] at each
  exact (each row hrow).1

/-! ### Calls -/

/-- Moving variables to the environments moves those that are chosen, or changes nothing; it goes well
without a change only if there is nothing to move. -/
theorem ensures_densify_chosen (wanted : List String) (d : Descriptor α) :
    Ensures (densify wanted) d fun r d' =>
      (d' = d ∧ (r = .ok () → ∀ p,
        Partition.chosen wanted d.features d.environments = .ok p → p.moved = [])) ∨
      r = .ok () ∧ ∃ p, Partition.chosen wanted d.features d.environments = .ok p ∧
        p.moved ≠ [] ∧ MovedToEnvironments p d d' := by
  refine ensures_within (ensures_value_bind (ensures_stateless_bind (ensures_mono
    (Partition.ensures_ofNames wanted d.features d.environments) ?_)))
  rintro r _ rfl
  cases chosen : Partition.chosen wanted d.features d.environments with
  | error e => exact .inl ⟨rfl, nofun⟩
  | ok p =>
    have parts : p.Parts d.features.size := (Partition.chosen_eq_ok chosen).parts
    dsimp only [andThen]
    split
    · next none =>
      refine ensures_pure (.inl ⟨rfl, fun _ p' same => ?_⟩)
      cases same
      exact List.isEmpty_iff.1 none
    next some =>
    refine ensures_log_bind (ensures_ofExcept_bind ?_ fun e _ => .inl ⟨rfl, nofun⟩)
    intro environments henvironments
    refine ensures_ofExcept_bind ?_ fun e _ => .inl ⟨rfl, nofun⟩
    intro gradients hgradients
    -- from here on the descriptor is changed, so that failing is not allowed any more
    refine ensures_setValue_bind ?_
    obtain ⟨features, hfeatures⟩ := exists_keptTable parts
      (columnSplitting p d.features).seconds.toList
      (by rw [columnSplitting, seconds_ofParts, List.map_map]; rfl)
    rw [← columnSplitting, hfeatures]
    refine ensures_setValue (.inr ⟨rfl, p, rfl, fun none => some (List.isEmpty_iff.2 none), ?_⟩)
    obtain ⟨environment_names, environment_rows⟩ := Labels.ofRows_eq_ok.1 henvironments
    obtain ⟨feature_names, feature_rows⟩ := Labels.ofRows_eq_ok.1 hfeatures
    exact ⟨parts, environment_names, environment_rows, feature_names, feature_rows, rfl,
      rel_mono (option_mapM_eq_ok hgradients) fun _ _ => gradientsToEnvironments_eq_ok, rfl⟩

/-- Moving variables to the environments changes nothing, or does what it is meant to do. -/
theorem ensures_densify (wanted : List String) (d : Descriptor α) :
    Ensures (densify wanted) d fun r d' =>
      d' = d ∨ r = .ok () ∧ ∃ p, MovedToEnvironments p d d' :=
  ensures_mono (ensures_densify_chosen wanted d) fun _ _ h =>
    h.imp (·.1) fun ⟨ok, p, _, _, moved⟩ => ⟨ok, p, moved⟩

/-- Moving variables to the features moves those that are chosen, or changes nothing; it goes well
without a change only if there is nothing to move. -/
theorem ensures_densifyToFeatures_chosen (wanted : List String) (d : Descriptor α) :
    Ensures (densifyToFeatures wanted) d fun r d' =>
      (d' = d ∧ (r = .ok () → ∀ p,
        Partition.chosen wanted d.environments d.features = .ok p → p.moved = [])) ∨
      r = .ok () ∧ ∃ p, Partition.chosen wanted d.environments d.features = .ok p ∧
        p.moved ≠ [] ∧ MovedToFeatures p d d' := by
  refine ensures_within (ensures_value_bind (ensures_stateless_bind (ensures_mono
    (Partition.ensures_ofNames wanted d.environments d.features) ?_)))
  rintro r _ rfl
  cases chosen : Partition.chosen wanted d.environments d.features with
  | error e => exact .inl ⟨rfl, nofun⟩
  | ok p =>
    have parts : p.Parts d.environments.size := (Partition.chosen_eq_ok chosen).parts
    dsimp only [andThen]
    split
    · next none =>
      refine ensures_pure (.inl ⟨rfl, fun _ p' same => ?_⟩)
      cases same
      exact List.isEmpty_iff.1 none
    next some =>
    refine ensures_log_bind (ensures_ofExcept_bind ?_ fun e _ => .inl ⟨rfl, nofun⟩)
    intro features hfeatures
    refine ensures_ofExcept_bind ?_ fun e _ => .inl ⟨rfl, nofun⟩
    intro gradients hgradients
    refine ensures_setValue_bind ?_
    obtain ⟨environments, henvironments⟩ := exists_keptTable parts
      (rowSplitting p d.environments).firsts.toList
      (by rw [rowSplitting, firsts_ofParts, List.map_map]; rfl)
    rw [← rowSplitting, henvironments]
    refine ensures_setValue (.inr ⟨rfl, p, rfl, fun none => some (List.isEmpty_iff.2 none), ?_⟩)
    obtain ⟨feature_names, feature_rows⟩ := Labels.ofRows_eq_ok.1 hfeatures
    obtain ⟨environment_names, environment_rows⟩ := Labels.ofRows_eq_ok.1 henvironments
    exact ⟨parts, feature_names, feature_rows, environment_names, environment_rows, rfl,
      rel_mono (option_mapM_eq_ok hgradients) fun _ _ => gradientsToFeatures_eq_ok, rfl⟩

/-- Moving variables to the features changes nothing, or does what it is meant to do. -/
theorem ensures_densifyToFeatures (wanted : List String) (d : Descriptor α) :
    Ensures (densifyToFeatures wanted) d fun r d' =>
      d' = d ∨ r = .ok () ∧ ∃ p, MovedToFeatures p d d' :=
  ensures_mono (ensures_densifyToFeatures_chosen wanted d) fun _ _ h =>
    h.imp (·.1) fun ⟨ok, p, _, _, moved⟩ => ⟨ok, p, moved⟩

end Atomistic.Descriptor
