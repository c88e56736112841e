import Atomistic.Environments
import Atomistic.Proofs.LabelTables
import Atomistic.Proofs.SortedSets
import Atomistic.Proofs.Traced

/-!
# Where gradient rows come from

Every strategy makes the gradient rows of some environments from these environments, whatever the
systems answer: it appends to the labels of an environment, or it puts the labels of one together
again from a pair of atoms that was found among the selected centers. So each row begins with the
labels of an environment, and the variables of the rows begin with those of the environments.
-/

namespace Atomistic

open Traced

/-! ### Names and parts of rows -/

theorem namesValid_centers : NamesValid ["structure", "center"] := ⟨by decide, by decide⟩

theorem namesValid_neighbors : NamesValid ["structure", "center", "neighbor", "spatial"] :=
  ⟨by decide, by decide⟩

theorem labelAt_eq_ok {row : List Int} {i : Nat} {v : Int} :
    labelAt row i = .ok v ↔ row[i]? = some v := by
  unfold labelAt
  cases row[i]? <;> simp

theorem positionOfLabel_eq_ok {label : Int} {n : Nat} :
    positionOfLabel label = .ok n ↔ label = n := by
  unfold positionOfLabel
  split
  · rw [Except.ok.injEq]
    omega
  · constructor
    · rintro ⟨⟩
    · omega

theorem positionAt_eq_ok {row : List Int} {i n : Nat} :
    positionAt row i = .ok n ↔ row[i]? = some (n : Int) := by
  rw [positionAt, except_bind_eq_ok]
  constructor
  · rintro ⟨label, hlabel, h⟩
    rw [← positionOfLabel_eq_ok.1 h]
    exact labelAt_eq_ok.1 hlabel
  · exact fun h => ⟨n, labelAt_eq_ok.2 h, positionOfLabel_eq_ok.2 rfl⟩

/-- Checking a row does not change it. -/
theorem checkRow_eq_ok {row checked : List Int} (h : checkRow row = .ok checked) :
    checked = row := by
  refine (List.forall₂_eq_eq_eq ▸ (except_mapM_eq_ok.1 h).imp fun v w hv => ?_ :
    row = checked).symm
  split at hv
  · cases hv
    rfl
  · cases hv

theorem mapM_checkRow_eq_ok {rows checked : List (List Int)} (h : rows.mapM checkRow = .ok checked) :
    checked = rows :=
  (List.forall₂_eq_eq_eq ▸ (except_mapM_eq_ok.1 h).imp fun _ _ hrow => (checkRow_eq_ok hrow).symm :
    rows = checked).symm

/-- Systems are requested by the environments that are in them. -/
theorem mem_of_requestedSystems {environments : Labels} {labels : List Int}
    (h : requestedSystems environments = .ok labels) {label : Int} :
    label ∈ labels ↔ ∃ row ∈ environments.rows, labelAt row 0 = .ok label := by
  obtain ⟨found, hfound, h⟩ := except_bind_eq_ok.1 h
  cases h
  rw [mem_sortedLabels, mem_of_mapM_eq_ok hfound]

/-- Different systems are requested once each. -/
theorem nodup_of_requestedSystems {environments : Labels} {labels : List Int}
    {systems : List Nat}
    (hlabels : requestedSystems environments = .ok labels)
    (hsystems : labels.mapM positionOfLabel = .ok systems) : systems.Nodup := by
  obtain ⟨found, -, h⟩ := except_bind_eq_ok.1 hlabels
  cases h
  have same : sortedLabels found = systems.map fun (i : Nat) => (i : Int) := by
    rw [← List.forall₂_eq_eq_eq, List.forall₂_map_right_iff]
    exact (except_mapM_eq_ok.1 hsystems).imp fun label i h => positionOfLabel_eq_ok.1 h
  have nodup : (sortedLabels found).Nodup :=
    (pairwise_sortedLabels found).imp ne_of_lt
  rw [same] at nodup
  exact nodup.of_map _

namespace Strategy

variable {σ α : Type} [AtomicSystem σ α]

/-! ### Environments -/

/-- The table of environments of a strategy has the variables of this strategy. -/
theorem answers_environments (s : Strategy α) :
    Answers (s.environments : Traced (Systems σ) Labels) fun t => t.names = s.names := by
  have table (rows : List (List Int)) : Answers (Traced.ofExcept (s := Systems σ) do
      Labels.ofRows s.names (← rows.mapM checkRow)) fun t => t.names = s.names := by
    refine answers_ofExcept fun t h => ?_
    obtain ⟨checked, -, h⟩ := except_bind_eq_ok.1 h
    exact (Labels.ofRows_eq_ok.1 h).1
  cases s with
  | structures => exact answers_after fun numbers => table _
  | atoms cutoff => exact answers_after fun rows => table _
  | structureSpecies => exact answers_after fun rows => table _
  | atomSpecies cutoff includesSelf => exact answers_after fun rows => table _
  | given names rows => exact table _

/-! ### Gradients -/

section Gradients

variable {t : Labels}

theorem answers_structureGradients {row : List Int} (h : row ∈ t.rows) :
    Answers (structureGradients row : Traced (Systems σ) _) fun rows => ∀ r ∈ rows, t.Roots r := by
  refine answers_after fun i => answers_after fun size => answers_pure fun r hr => ?_
  obtain ⟨atom, -, rfl⟩ := List.mem_map.1 hr
  exact Labels.roots_append_of_mem h _

theorem answers_structureSpeciesGradients {row : List Int} (h : row ∈ t.rows) :
    Answers (structureSpeciesGradients row : Traced (Systems σ) _) fun rows =>
      ∀ r ∈ rows, t.Roots r := by
  refine answers_after fun i => answers_after fun species => answers_after fun alpha =>
    answers_pure fun r hr => ?_
  obtain ⟨atom, -, rfl⟩ := List.mem_map.1 hr
  exact Labels.roots_append_of_mem h _

/-- The selected centers of a system are those of the environments in it. -/
theorem mem_centers (names : t.names.length = 2) {system : Int} {centers : List Nat}
    (h : (t.rows.filter fun row => row.head? == some system).mapM (positionAt · 1) = .ok centers)
    {center : Nat} : center ∈ centers ↔ [system, (center : Int)] ∈ t.rows := by
  constructor
  · intro hcenter
    obtain ⟨row, hrow, hlabel⟩ := (mem_of_mapM_eq_ok h).1 hcenter
    obtain ⟨hrow, hsystem⟩ := List.mem_filter.1 hrow
    have here : row = [system, (center : Int)] := by
      have width := (t.width row hrow).trans names
      rw [positionAt_eq_ok] at hlabel
      rcases row with _ | ⟨a, _ | ⟨b, _ | ⟨c, rest⟩⟩⟩ <;> simp_all
    exact here ▸ hrow
  · intro hrow
    have here : [system, (center : Int)] ∈ t.rows.filter fun row => row.head? == some system :=
      List.mem_filter.2 ⟨hrow, beq_self_eq_true _⟩
    exact (mem_of_mapM_eq_ok h).2 ⟨_, here, positionAt_eq_ok.2 rfl⟩

/-- The environment of a center is found again from the number of the system and the center. -/
theorem answers_atomGradients (cutoff : α) (names : t.names.length = 2) (system : Int) :
    Answers (atomGradients cutoff t system : Traced (Systems σ) _) fun rows =>
      ∀ r ∈ rows, t.Roots r := by
  refine answers_after fun i => answers_after fun _ =>
    answers_bind (answers_ofExcept fun centers h => h) fun centers hcenters =>
    answers_after fun pairs => answers_pure fun r hr => ?_
  obtain ⟨⟨center, neighbor⟩, hseen, rfl⟩ := List.mem_map.1 hr
  have hcenter : center ∈ centers := by simpa using (List.mem_filter.1 hseen).2
  exact Labels.roots_append_of_mem ((mem_centers names hcenters).1 hcenter) [(neighbor : Int)]

theorem speciesCenterOf_eq_ok {row : List Int} {center : Nat} {alpha beta : Int} :
    speciesCenterOf row = .ok (center, alpha, beta) ↔
      row[1]? = some (center : Int) ∧ row[2]? = some alpha ∧ row[3]? = some beta := by
  rw [speciesCenterOf, except_bind_eq_ok]
  constructor
  · rintro ⟨c, hc, h⟩
    obtain ⟨a, ha, h⟩ := except_bind_eq_ok.1 h
    obtain ⟨b, hb, h⟩ := except_bind_eq_ok.1 h
    cases h
    exact ⟨positionAt_eq_ok.1 hc, labelAt_eq_ok.1 ha, labelAt_eq_ok.1 hb⟩
  · rintro ⟨hc, ha, hb⟩
    refine ⟨center, positionAt_eq_ok.2 hc, except_bind_eq_ok.2 ⟨alpha, labelAt_eq_ok.2 ha, ?_⟩⟩
    exact except_bind_eq_ok.2 ⟨beta, labelAt_eq_ok.2 hb, rfl⟩

/-- The selected centers with species are those of the environments too. -/
theorem mem_centers_withSpecies (names : t.names.length = 4) {system : Int}
    {centers : List SpeciesCenter}
    (h : (t.rows.filter fun row => row.head? == some system).mapM speciesCenterOf = .ok centers)
    {center : Nat} {alpha beta : Int} :
    (center, alpha, beta) ∈ centers ↔ [system, (center : Int), alpha, beta] ∈ t.rows := by
  constructor
  · intro hcenter
    obtain ⟨row, hrow, hlabels⟩ := (mem_of_mapM_eq_ok h).1 hcenter
    obtain ⟨hrow, hsystem⟩ := List.mem_filter.1 hrow
    have here : row = [system, (center : Int), alpha, beta] := by
      have width := (t.width row hrow).trans names
      rw [speciesCenterOf_eq_ok] at hlabels
      rcases row with _ | ⟨a, _ | ⟨b, _ | ⟨c, _ | ⟨d, _ | ⟨e, rest⟩⟩⟩⟩⟩ <;> simp_all
    exact here ▸ hrow
  · intro hrow
    have here : [system, (center : Int), alpha, beta]
        ∈ t.rows.filter fun row => row.head? == some system :=
      List.mem_filter.2 ⟨hrow, beq_self_eq_true _⟩
    exact (mem_of_mapM_eq_ok h).2 ⟨_, here, speciesCenterOf_eq_ok.2 ⟨rfl, rfl, rfl⟩⟩

/-- The environment of a center with species is found again too. -/
theorem answers_atomSpeciesGradients (cutoff : α) (names : t.names.length = 4) (system : Int) :
    Answers (atomSpeciesGradients cutoff t system : Traced (Systems σ) _) fun rows =>
      ∀ r ∈ rows, t.Roots r := by
  refine answers_after fun i => answers_after fun _ => answers_after fun species =>
    answers_bind (answers_ofExcept fun centers h => h) fun centers hcenters =>
    answers_after fun pairs => answers_after fun seen => answers_pure fun r hr => ?_
  obtain ⟨⟨⟨center, alpha, beta⟩, neighbor⟩, hseen, rfl⟩ := List.mem_map.1 hr
  have hcenter : (center, alpha, beta) ∈ centers := by simpa using (List.mem_filter.1 hseen).2
  exact Labels.roots_append_of_mem ((mem_centers_withSpecies names hcenters).1 hcenter)
    [(neighbor : Int)]

theorem roots_flatten {β : Type} {keys : List β} {rows : List (List (List Int))}
    (h : List.Forall₂ (fun _ found => ∀ r ∈ found, t.Roots r) keys rows) :
    ∀ r ∈ rows.flatten, t.Roots r := by
  induction h with
  | nil => simp
  | cons first _ ih =>
    intro r hr
    rcases List.mem_append.1 hr with hr | hr
    · exact first r hr
    · exact ih r hr

/-- Rows that are gathered system by system are sorted, which adds none. -/
theorem answers_bySystem {rows : Int → Traced (Systems σ) (List (List Int))}
    (h : ∀ system, Answers (rows system) fun found => ∀ r ∈ found, t.Roots r) :
    Answers (do
      let systems ← Traced.ofExcept (requestedSystems t)
      return sortedRows (← systems.mapM rows).flatten) fun found => ∀ r ∈ found, t.Roots r := by
  refine answers_after fun systems => ?_
  refine answers_bind (answers_mapM fun system _ => h system) fun found hfound => ?_
  exact answers_pure fun r hr => roots_flatten hfound r (mem_sortedRows.1 hr)

theorem names_prefix_gradientNames (s : Strategy α) : s.names <+: s.gradientNames := by
  cases s with
  | given names rows => exact List.prefix_refl _
  | _ => exact List.prefix_append _ _

omit [AtomicSystem σ α] in
/-- The table of gradients has a row in each direction for each of the rows that were found. -/
theorem answers_gradientTable (s : Strategy α) (names : t.names = s.names)
    {rows : List (List Int)} (h : ∀ r ∈ rows, t.Roots r) :
    Answers (Traced.ofExcept (s := Systems σ) do
      let checked ← rows.mapM checkRow
      let g ← Labels.ofRows s.gradientNames (checked.flatMap spatialRows)
      pure (some g)) fun found => ∀ g, found = some g →
        t.names <+: g.names ∧ ∀ row ∈ g.rows, t.Roots row := by
  refine answers_ofExcept fun found hfound => ?_
  obtain ⟨checked, hchecked, hfound⟩ := except_bind_eq_ok.1 hfound
  obtain ⟨g, hg, hfound⟩ := except_bind_eq_ok.1 hfound
  cases hfound
  rintro g ⟨⟩
  obtain ⟨gradient_names, gradient_rows⟩ := Labels.ofRows_eq_ok.1 hg
  rw [mapM_checkRow_eq_ok hchecked] at gradient_rows
  constructor
  · rw [names, gradient_names]
    exact s.names_prefix_gradientNames
  · intro row hrow
    rw [gradient_rows] at hrow
    obtain ⟨r, hr, hspatial⟩ := List.mem_flatMap.1 hrow
    obtain ⟨k, -, rfl⟩ := List.mem_map.1 hspatial
    exact (h r hr).append _

/-- The variables of gradient rows begin with those of the environments, and their labels with those
of an environment. -/
theorem answers_gradientsFor (s : Strategy α) (names : t.names = s.names) :
    Answers (s.gradientsFor t : Traced (Systems σ) _) fun found => ∀ g, found = some g →
      t.names <+: g.names ∧ ∀ row ∈ g.rows, t.Roots row := by
  cases s with
  | structures =>
    refine answers_bind (answers_mapM fun row hrow => answers_structureGradients hrow) ?_
    exact fun rows hrows => answers_gradientTable _ names (roots_flatten hrows)
  | structureSpecies =>
    refine answers_bind (answers_mapM fun row hrow => answers_structureSpeciesGradients hrow) ?_
    exact fun rows hrows => answers_gradientTable _ names (roots_flatten hrows)
  | atoms cutoff =>
    have width : t.names.length = 2 := congrArg List.length names
    refine answers_bind (answers_bySystem fun system => ?_) ?_
    · exact answers_atomGradients cutoff width system
    · exact fun rows hrows => answers_gradientTable _ names hrows
  | atomSpecies cutoff includesSelf =>
    have width : t.names.length = 4 := congrArg List.length names
    refine answers_bind (answers_bySystem fun system => ?_) ?_
    · exact answers_atomSpeciesGradients cutoff width system
    · exact fun rows hrows => answers_gradientTable _ names hrows
  | given names rows =>
    refine answers_pure ?_
    rintro g ⟨⟩

/-- Gradient rows have the variables that the strategy gives them. -/
theorem answers_gradientNames (s : Strategy α) (t : Labels) :
    Answers (s.gradientsFor t : Traced (Systems σ) _) fun found =>
      ∀ g, found = some g → g.names = s.gradientNames := by
  have table (rows : List (List Int)) : Answers (Traced.ofExcept (s := Systems σ) do
      let checked ← rows.mapM checkRow
      let g ← Labels.ofRows s.gradientNames (checked.flatMap spatialRows)
      pure (some g)) fun found => ∀ g, found = some g → g.names = s.gradientNames := by
    refine answers_ofExcept fun found hfound => ?_
    obtain ⟨checked, -, hfound⟩ := except_bind_eq_ok.1 hfound
    obtain ⟨g, hg, hfound⟩ := except_bind_eq_ok.1 hfound
    cases hfound
    rintro g ⟨⟩
    exact (Labels.ofRows_eq_ok.1 hg).1
  cases s with
  | structures => exact answers_after fun rows => table _
  | structureSpecies => exact answers_after fun rows => table _
  | atoms cutoff => exact answers_after fun rows => table _
  | atomSpecies cutoff includesSelf => exact answers_after fun rows => table _
  | given names rows =>
    refine answers_pure ?_
    rintro g ⟨⟩

end Gradients

end Strategy

end Atomistic
