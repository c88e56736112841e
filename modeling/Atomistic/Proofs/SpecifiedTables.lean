import Atomistic.Proofs.MoveAnswers

/-!
# The tables that a call is asked for

Where variables go is said cell by cell: every cell of a descriptor has an environment and a
feature, and goes to the environment and the feature that are left of them when some labels change
sides. The new tables are the keys that come up when going through all cells, environment by
environment, each key where it is first seen. No call looks at all cells, though: tables are put
together from the distinct parts of rows. Both are the same, because distinct places of a grid have
distinct keys, so that its rows and its columns are first seen in their own order.
-/

namespace Atomistic.Descriptor

open Traced

variable {α : Type} {p : Partition} {d d' : Descriptor α} {wanted : List String}

/-! ### Keys of cells -/

/-- The tables after moving variables of the features to the environments. -/
structure SpecifiedToEnvironments (wanted : List String) (d d' : Descriptor α) : Prop where
  environment_names : d'.environments.names = d.environments.names ++ d.features.asked wanted
  environment_rows : d'.environments.rows = (d.environments.rows.flatMap fun e =>
    d.features.rows.map fun f => e ++ d.features.part (d.features.asked wanted) f).eraseDups
  feature_names : d'.features.names = d.features.others wanted
  feature_rows : d'.features.rows
    = (d.features.rows.map (d.features.part (d.features.others wanted))).eraseDups
  gradients : Option.Rel (fun t t' : Labels =>
    t'.names = d.environments.names ++ d.features.asked wanted ++ t.names.drop d.environments.size ∧
    t'.rows = (t.rows.flatMap fun row => d.features.rows.map fun f =>
      row.take d.environments.size ++ d.features.part (d.features.asked wanted) f
        ++ row.drop d.environments.size).eraseDups) (d.labels? .gradients) (d'.labels? .gradients)

/-- The tables after moving variables of the environments to the features. -/
structure SpecifiedToFeatures (wanted : List String) (d d' : Descriptor α) : Prop where
  environment_names : d'.environments.names = d.environments.others wanted
  environment_rows : d'.environments.rows
    = (d.environments.rows.map (d.environments.part (d.environments.others wanted))).eraseDups
  feature_names : d'.features.names = d.environments.asked wanted ++ d.features.names
  feature_rows : d'.features.rows = (d.environments.rows.flatMap fun e =>
    d.features.rows.map fun f => d.environments.part (d.environments.asked wanted) e ++ f).eraseDups
  gradients : Option.Rel (fun t t' : Labels =>
    t'.names = d.environments.others wanted ++ t.names.drop d.environments.size ∧
    t'.rows = (t.rows.map fun row =>
      d.environments.part (d.environments.others wanted) (row.take d.environments.size)
        ++ row.drop d.environments.size).eraseDups) (d.labels? .gradients) (d'.labels? .gradients)

/-! ### Grids -/

/-- Rows that are joined with the tuples that some variables of a table take, are those that are
joined with the labels of these variables in all of its rows. -/
theorem flatMap_tuples {rows : List (List Int)} {t : Labels} {names : List String}
    {join : List Int → List Int → List Int} (nodup : rows.Nodup)
    (inj : ∀ row ∈ rows, ∀ row' ∈ rows, ∀ block block' : List Int, block.length = block'.length →
      join row block = join row' block' → row = row' ∧ block = block') :
    (rows.flatMap fun row => (t.tuples names).map (join row))
      = (rows.flatMap fun row => t.rows.map fun f => join row (t.part names f)).eraseDups := by
  have cells (row : List Int) : (t.rows.map fun f => join row (t.part names f))
      = (t.rows.map (t.part names)).map (join row) := List.map_map.symm
  simp only [cells]
  rw [← firstSeen_eq_eraseDups, firstSeen_flatMap_map, firstSeen_of_nodup nodup, Labels.tuples]
  intro row hrow block hblock row' hrow' block' hblock' same
  obtain ⟨f, -, rfl⟩ := List.mem_map.1 hblock
  obtain ⟨f', -, rfl⟩ := List.mem_map.1 hblock'
  exact inj row hrow row' hrow' _ _ ((t.length_part ..).trans (t.length_part ..).symm) same

/-- The same with the tuples in front. -/
theorem tuples_flatMap {rows : List (List Int)} (nodup : rows.Nodup) (t : Labels)
    (names : List String) :
    ((t.tuples names).flatMap fun block => rows.map fun row => block ++ row)
      = (t.rows.flatMap fun e => rows.map fun row => t.part names e ++ row).eraseDups := by
  rw [← firstSeen_eq_eraseDups, ← List.flatMap_map (t.part names) fun block =>
    rows.map fun row => block ++ row, firstSeen_flatMap_map, firstSeen_of_nodup nodup, Labels.tuples]
  intro block hblock row _ block' hblock' row' _ same
  obtain ⟨e, -, rfl⟩ := List.mem_map.1 hblock
  obtain ⟨e', -, rfl⟩ := List.mem_map.1 hblock'
  exact List.append_inj same ((t.length_part ..).trans (t.length_part ..).symm)

theorem MovedToEnvironments.specified [Scalar α] (shaped : d.Shaped)
    (h : MovedToEnvironments (.ofAsked wanted d.features) d d') :
    SpecifiedToEnvironments wanted d d' where
  environment_names := by
    rw [h.environment_names, Partition.movedOf_ofAsked]
  environment_rows := by
    rw [h.environment_rows, columnSplitting_firsts, Partition.movedOf_ofAsked]
    refine flatMap_tuples d.environments.nodup fun e he e' he' block block' _ same => ?_
    exact List.append_inj same
      ((d.environments.width e he).trans (d.environments.width e' he').symm)
  feature_names := by
    rw [h.feature_names, Partition.keptOf_ofAsked]
  feature_rows := by
    rw [h.feature_rows, columnSplitting_seconds, Partition.keptOf_ofAsked, Labels.tuples,
      firstSeen_eq_eraseDups]
  gradients := rel_labels h.gradients fun g g' hg split => by
    have old := shaped.gradients g hg
    rw [split.names, split.rows, columnSplitting_firsts, Partition.movedOf_ofAsked]
    refine ⟨rfl, flatMap_tuples g.labels.nodup fun row hrow row' hrow' block block' size same => ?_⟩
    exact insert_inj ((length_take old.names hrow).trans (length_take old.names hrow').symm)
      size same

theorem MovedToFeatures.specified [Scalar α] (shaped : d.Shaped)
    (h : MovedToFeatures (.ofAsked wanted d.environments) d d') :
    SpecifiedToFeatures wanted d d' where
  environment_names := by
    rw [h.environment_names, Partition.keptOf_ofAsked]
  environment_rows := by
    rw [h.environment_rows, rowSplitting_firsts, Partition.keptOf_ofAsked, Labels.tuples,
      firstSeen_eq_eraseDups]
  feature_names := by
    rw [h.feature_names, Partition.movedOf_ofAsked]
  feature_rows := by
    rw [h.feature_rows, rowSplitting_seconds, Partition.movedOf_ofAsked,
      tuples_flatMap d.features.nodup]
  gradients := rel_labels h.gradients fun g g' hg merged => by
    have stays := Partition.keptOf_ofAsked wanted d.environments
    rw [merged.names, merged.rows, gradientSplitting_firsts (shaped.gradients g hg).names stays,
      stays, firstSeen_eq_eraseDups]
    exact ⟨rfl, rfl⟩

namespace Move

/-- The tables after a call. -/
def Specified (d d' : Descriptor α) : Move → Prop
  | toEnvironments wanted => SpecifiedToEnvironments wanted d d'
  | toFeatures wanted => SpecifiedToFeatures wanted d d'

theorem Moved.specified [Scalar α] {move : Move} (shaped : d.Shaped)
    (h : move.Moved (.ofAsked move.wanted (move.source d)) d d') : move.Specified d d' := by
  cases move with
  | toEnvironments wanted => exact MovedToEnvironments.specified shaped h
  | toFeatures wanted => exact MovedToFeatures.specified shaped h

/-- A call that goes well and has something to move leaves the tables that the keys of all cells
make, in the order in which they come up. -/
theorem specified_tables [Scalar α] (shaped : d.Shaped) (move : Move)
    (ok : (move.apply.outcome d).1 = .ok ())
    (moves : (move.source d).asked move.wanted ≠ []) :
    move.Specified d (move.apply.outcome d).2.1 := by
  obtain ⟨p, choice, ⟨none, -⟩ | ⟨-, moved⟩⟩ := (ensures_moved d move).outcome ok
  · exact absurd ((moved_eq_nil_iff choice).1 none) moves
  · obtain ⟨-, -, rfl⟩ := Partition.chosen_eq_ok_iff.1 choice
    exact moved.specified shaped

end Move

/-- The ranks come behind the centers, both atoms have both of them, and so do gradient rows. -/
theorem specified_tables_twoAtoms :
    let d := ((densify ["structure", "rank"]).outcome twoAtoms).2.1
    d.environments.names = ["structure", "center", "rank"] ∧
      d.environments.rows = [[0, 0, 0], [0, 0, 1], [0, 1, 0], [0, 1, 1]] ∧
      d.features.names = ["species"] ∧ d.features.rows = [[1], [6]] ∧
      (d.labels? .gradients).map Labels.rows
        = some [[0, 0, 0, 1, 0], [0, 0, 1, 1, 0], [0, 1, 0, 0, 2], [0, 1, 1, 0, 2]] := by
  obtain ⟨names, rows, feature_names, feature_rows, gradients⟩ :=
    Move.specified_tables wellFormed_twoAtoms.toShaped (.toEnvironments ["structure", "rank"])
      densify_twoAtoms (by decide)
  refine ⟨names.trans (by decide), rows.trans (by decide), feature_names.trans (by decide),
    feature_rows.trans (by decide), ?_⟩
  exact (map_eq_of_rel gradients fun _ _ _ specified => specified.2).trans (by decide)

end Atomistic.Descriptor
