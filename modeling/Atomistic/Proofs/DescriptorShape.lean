import Atomistic.Proofs.DensifySteps

/-!
# The shape of descriptors

The arrays of a descriptor have one row for each row of their tables of labels, and one column for
each feature; gradient rows begin with the variables of the environments. In a descriptor that a
calculation made they also begin with the labels of one of its environments. Densification keeps
both, in either direction.
-/

namespace Atomistic

variable {α : Type} [Scalar α]

/-- The array of some gradients fits their tables. -/
structure Gradients.Shaped (g : Gradients α) (environments features : Labels) : Prop where
  rows : g.values.rows = g.labels.count
  columns : g.values.columns = features.count
  names : environments.names <+: g.labels.names

/-- Every gradient row belongs to one of the environments. -/
def Gradients.Rooted (g : Gradients α) (environments : Labels) : Prop :=
  ∀ row ∈ g.labels.rows, environments.Roots row

namespace Descriptor

/-- The arrays of a descriptor fit its tables. -/
structure Shaped (d : Descriptor α) : Prop where
  rows : d.values.rows = d.environments.count
  columns : d.values.columns = d.features.count
  gradients : ∀ g, d.gradients = some g → g.Shaped d.environments d.features

/-- Every gradient row of a descriptor belongs to one of its environments. -/
def Rooted (d : Descriptor α) : Prop := ∀ g, d.gradients = some g → g.Rooted d.environments

/-! ### Sizes of the parts -/

theorem length_flatMap_map {β γ δ : Type} (outer : List β) (inner : List γ) (join : β → γ → δ) :
    (outer.flatMap fun b => inner.map (join b)).length = outer.length * inner.length := by
  induction outer with
  | nil => simp
  | cons b outer ih =>
    rw [List.flatMap_cons, List.length_append, ih, List.length_map, List.length_cons, Nat.succ_mul,
      Nat.add_comm]

theorem mem_columnSplitting_firsts {p : Partition} {features : Labels} {block : List Int} :
    block ∈ (columnSplitting p features).firsts.toList ↔
      ∃ f ∈ features.rows, p.movedOf f = block := by
  rw [columnSplitting, firsts_ofParts, mem_firstSeen, List.map_map, List.mem_map]
  rfl

theorem mem_rowSplitting_firsts {p : Partition} {environments : Labels} {row : List Int} :
    row ∈ (rowSplitting p environments).firsts.toList ↔
      ∃ e ∈ environments.rows, p.keptOf e = row := by
  rw [rowSplitting, firsts_ofParts, mem_firstSeen, List.map_map, List.mem_map]
  rfl

theorem mem_rowSplitting_seconds {p : Partition} {environments : Labels} {block : List Int} :
    block ∈ (rowSplitting p environments).seconds.toList ↔
      ∃ e ∈ environments.rows, p.movedOf e = block := by
  rw [rowSplitting, seconds_ofParts, mem_firstSeen, List.map_map, List.mem_map]
  rfl

theorem mem_gradientSplitting_firsts {p : Partition} {environments gradients : Labels}
    {row : List Int} : row ∈ (gradientSplitting p environments gradients).firsts.toList ↔
      ∃ r ∈ gradients.rows, (gradientParts p environments.size r).1 = row := by
  have h : (gradientSplitting p environments gradients).firsts.toList
      = firstSeen ((gradients.rows.map (gradientParts p environments.size)).map (·.1)) :=
    firsts_ofParts _
  rw [h, mem_firstSeen, List.map_map, List.mem_map]
  rfl

/-- The blocks that features are split into have one label for each variable that moves. -/
theorem length_block {p : Partition} {features : Labels} (parts : p.Parts features.size)
    {block : List Int} (h : block ∈ (columnSplitting p features).firsts.toList) :
    block.length = (p.movedOf features.names).length := by
  obtain ⟨f, hf, rfl⟩ := mem_columnSplitting_firsts.1 h
  rw [parts.length_movedOf (features.width f hf), parts.length_movedOf rfl]

/-- A gradient row begins with a label for each variable of the environments. -/
theorem length_take {environments gradients : Labels}
    (h : environments.names <+: gradients.names) {row : List Int} (hrow : row ∈ gradients.rows) :
    (row.take environments.size).length = environments.size := by
  rw [List.length_take, gradients.width row hrow]
  exact Nat.min_eq_left h.length_le

/-- Rows into which blocks of one size are put are told apart, and so are the blocks. -/
theorem insert_inj {n : Nat} {row row' block block' : List Int}
    (start : (row.take n).length = (row'.take n).length) (size : block.length = block'.length)
    (same : row.take n ++ block ++ row.drop n = row'.take n ++ block' ++ row'.drop n) :
    row = row' ∧ block = block' := by
  rw [List.append_assoc, List.append_assoc] at same
  obtain ⟨first, same⟩ := List.append_inj same start
  obtain ⟨middle, last⟩ := List.append_inj same size
  refine ⟨?_, middle⟩
  rw [← List.take_append_drop n row, first, last, List.take_append_drop]

/-! ### Moving variables to the environments -/

namespace MovedToEnvironments

variable {p : Partition} {d d' : Descriptor α}

theorem environment_size (h : MovedToEnvironments p d d') :
    d'.environments.size = d.environments.size + (p.movedOf d.features.names).length := by
  rw [Labels.size, h.environment_names, List.length_append]
  rfl

theorem shaped (h : MovedToEnvironments p d d') (shaped : d.Shaped) : d'.Shaped := by
  refine ⟨?_, ?_, fun g' hg' => ?_⟩
  · rw [h.values, Labels.count, h.environment_rows, length_flatMap_map, Array.length_toList,
      splitColumns, Dense.gather, Dense.ofFn, shaped.rows]
    rfl
  · rw [h.values, Labels.count, h.feature_rows]
    rfl
  · obtain ⟨g, hg, split⟩ := exists_of_rel h.gradients hg'
    have old := shaped.gradients g hg
    refine ⟨?_, ?_, ?_⟩
    · rw [split.values, Labels.count, split.rows, length_flatMap_map, Array.length_toList,
        splitColumns, Dense.gather, Dense.ofFn, old.rows]
      rfl
    · rw [split.values, Labels.count, h.feature_rows]
      rfl
    · rw [h.environment_names, split.names]
      exact List.prefix_append _ _

/-- The environment of a gradient row takes the block of this row. -/
theorem rooted (h : MovedToEnvironments p d d') (shaped : d.Shaped) (rooted : d.Rooted) :
    d'.Rooted := by
  intro g' hg' row' hrow'
  obtain ⟨g, hg, split⟩ := exists_of_rel h.gradients hg'
  rw [split.rows] at hrow'
  obtain ⟨row, hrow, joined⟩ := List.mem_flatMap.1 hrow'
  obtain ⟨block, hblock, rfl⟩ := List.mem_map.1 joined
  have start : (row.take d.environments.names.length).length = d.environments.size :=
    length_take (shaped.gradients g hg).names hrow
  have here : (row.take d.environments.names.length ++ block).length = d'.environments.size := by
    rw [List.length_append, start, length_block h.parts hblock, h.environment_size]
  rw [Labels.Roots, List.take_left' here, h.environment_rows]
  exact List.mem_flatMap.2 ⟨_, rooted g hg row hrow, List.mem_map.2 ⟨block, hblock, rfl⟩⟩

end MovedToEnvironments

/-! ### Moving variables to the features -/

namespace MovedToFeatures

variable {p : Partition} {d d' : Descriptor α}

theorem shaped (h : MovedToFeatures p d d') (shaped : d.Shaped) : d'.Shaped := by
  refine ⟨?_, ?_, fun g' hg' => ?_⟩
  · rw [h.values, Labels.count, h.environment_rows]
    rfl
  · rw [h.values, Labels.count, h.feature_rows, length_flatMap_map, Array.length_toList,
      splitRows, Dense.gather, Dense.ofFn, shaped.columns]
    rfl
  · obtain ⟨g, hg, merged⟩ := exists_of_rel h.gradients hg'
    have old := shaped.gradients g hg
    refine ⟨?_, ?_, ?_⟩
    · rw [merged.values, Labels.count, merged.rows]
      rfl
    · rw [merged.values, Labels.count, h.feature_rows, length_flatMap_map, Array.length_toList,
        splitRows, Dense.gather, Dense.ofFn, old.columns]
      rfl
    · rw [h.environment_names, merged.names]
      exact List.prefix_append _ _

/-- What stays of the environment of a gradient row is an environment. -/
theorem rooted (h : MovedToFeatures p d d') (shaped : d.Shaped) : d'.Rooted := by
  intro g' hg' row' hrow'
  obtain ⟨g, hg, merged⟩ := exists_of_rel h.gradients hg'
  rw [merged.rows] at hrow'
  obtain ⟨row, hrow, rfl⟩ := mem_gradientSplitting_firsts.1 hrow'
  have start : (row.take d.environments.size).length = d.environments.size :=
    length_take (shaped.gradients g hg).names hrow
  have here : (p.keptOf (row.take d.environments.size)).length = d'.environments.size := by
    rw [h.parts.length_keptOf start, Labels.size, h.environment_names,
      h.parts.length_keptOf rfl]
  rw [Labels.Roots, gradientParts, List.take_left' here, h.environment_rows]
  exact mem_rowSplitting_firsts.2 ⟨_, merged.known row hrow, rfl⟩

end MovedToFeatures

end Descriptor

end Atomistic
