import Atomistic.Proofs.DescriptorShape
import Atomistic.Scalar.Binary64

/-!
# The meaning of a descriptor

Whichever of its variables number rows and which number columns, a descriptor gives a value to every
assignment of all of them: the one in the row and the column with the assigned labels, and zero if
there is none. Gradients are read in the same way, with the labels behind those of the environment
as one more key. Moving variables between the two axes keeps this meaning, call after call: no value
is lost, and none goes to other labels.
-/

namespace Atomistic

open Traced

/-- A label for every variable. -/
abbrev Assignment := String → Int

variable {α : Type} [Scalar α]

namespace Descriptor

/-- The value of an assignment. -/
def valueAt (d : Descriptor α) (a : Assignment) : α :=
  d.values.entry d.environments d.features (d.environments.names.map a) (d.features.names.map a)

/-- The gradient value of an assignment and of the labels behind those of the environment, in a
descriptor that has gradients. -/
def gradientAt (d : Descriptor α) (a : Assignment) (suffix : List Int) : Option α :=
  d.gradients.map fun g => g.values.entry g.labels d.features
    (d.environments.names.map a ++ suffix) (d.features.names.map a)

/-- The variables of gradient rows behind those of the environments. -/
def suffixNames (d : Descriptor α) : Option (List String) :=
  d.gradients.map fun g => g.labels.names.drop d.environments.size

/-- A descriptor whose arrays fit its tables, and which has no variable on both axes. -/
structure WellFormed (d : Descriptor α) : Prop extends d.Shaped where
  disjoint : d.environments.names.Disjoint d.features.names

/-- Two descriptors over the same variables that give the same values to all assignments. -/
structure SameMeaning (d d' : Descriptor α) : Prop where
  names : (d'.environments.names ++ d'.features.names).Perm
    (d.environments.names ++ d.features.names)
  values : ∀ a, d'.valueAt a = d.valueAt a
  suffix : d'.suffixNames = d.suffixNames
  gradients : ∀ a suffix, d'.gradientAt a suffix = d.gradientAt a suffix

theorem SameMeaning.refl (d : Descriptor α) : SameMeaning d d :=
  ⟨.refl _, fun _ => rfl, rfl, fun _ _ => rfl⟩

theorem SameMeaning.trans {d d' d'' : Descriptor α} (h : SameMeaning d d')
    (h' : SameMeaning d' d'') : SameMeaning d d'' :=
  ⟨h'.names.trans h.names, fun a => (h'.values a).trans (h.values a),
    h'.suffix.trans h.suffix, fun a s => (h'.gradients a s).trans (h.gradients a s)⟩

/-- A row is found again from the labels of its variables. -/
theorem map_getD_idxOf {names : List String} (nodup : names.Nodup) {row : List Int}
    (width : row.length = names.length) :
    names.map (fun name => row.getD (names.idxOf name) 0) = row := by
  refine List.ext_getElem (by rw [List.length_map, width]) fun i h h' => ?_
  rw [List.length_map] at h
  rw [List.getElem_map, nodup.idxOf_getElem i h]
  exact (List.getElem_eq_getD 0).symm

omit [Scalar α] in
/-- Labels for the variables of both axes are assigned together. -/
theorem WellFormed.exists_reading {d : Descriptor α} (wf : d.WellFormed) {e f : List Int}
    (he : e.length = d.environments.size) (hf : f.length = d.features.size) :
    ∃ a : Assignment, d.environments.names.map a = e ∧ d.features.names.map a = f := by
  refine ⟨fun name => if name ∈ d.environments.names
    then e.getD (d.environments.names.idxOf name) 0
    else f.getD (d.features.names.idxOf name) 0, ?_, ?_⟩
  · refine Eq.trans (List.map_congr_left fun name hname => if_pos hname) ?_
    exact map_getD_idxOf d.environments.names_valid.nodup he
  · refine Eq.trans (List.map_congr_left fun name hname => if_neg (wf.disjoint · hname)) ?_
    exact map_getD_idxOf d.features.names_valid.nodup hf

/-! ### Parts of rows -/

section Parts

variable {p : Partition} {t : Labels}

theorem splits_columnSplitting (parts : p.Parts t.size) :
    (columnSplitting p t).Splits t.rows fun f => (p.movedOf f, p.keptOf f) := by
  refine Splitting.splits_ofParts (List.Nodup.map_on ?_ t.nodup)
  intro f hf f' hf' h
  rw [Prod.mk.injEq] at h
  exact parts.row_ext (t.width f hf) (t.width f' hf') h.1 h.2

theorem splits_rowSplitting (parts : p.Parts t.size) :
    (rowSplitting p t).Splits t.rows fun e => (p.keptOf e, p.movedOf e) := by
  refine Splitting.splits_ofParts (List.Nodup.map_on ?_ t.nodup)
  intro e he e' he' h
  rw [Prod.mk.injEq] at h
  exact parts.row_ext (t.width e he) (t.width e' he') h.2 h.1

/-- A gradient row is known from its parts. -/
theorem gradientParts_inj {n : Nat} (parts : p.Parts n) {row other : List Int}
    (hrow : (row.take n).length = n) (hother : (other.take n).length = n)
    (h : gradientParts p n row = gradientParts p n other) : row = other := by
  obtain ⟨first, moved⟩ := Prod.mk.inj h
  obtain ⟨kept, suffix⟩ := List.append_inj first
    ((parts.length_keptOf hrow).trans (parts.length_keptOf hother).symm)
  calc row = row.take n ++ row.drop n := (List.take_append_drop n row).symm
    _ = other.take n ++ other.drop n := by rw [parts.row_ext hrow hother moved kept, suffix]
    _ = other := List.take_append_drop n other

theorem splits_gradientSplitting {gradients : Labels} (parts : p.Parts t.size)
    (names : t.names <+: gradients.names)
    (known : ∀ row ∈ gradients.rows, row.take t.size ∈ t.rows) :
    (gradientSplitting p t gradients).Splits gradients.rows (gradientParts p t.size) := by
  refine (Splitting.splits_ofParts (List.Nodup.map_on ?_ gradients.nodup)).withSeconds ?_
  · intro row hrow other hother h
    exact gradientParts_inj parts (length_take names hrow) (length_take names hother) h
  · intro row hrow
    exact mem_rowSplitting_seconds.2 ⟨_, known row hrow, rfl⟩

end Parts

/-! ### One call -/

section Steps

variable {p : Partition} {d d' : Descriptor α}

namespace MovedToEnvironments

theorem valueAt_eq (h : MovedToEnvironments p d d') (shaped : d.Shaped) (a : Assignment) :
    d'.valueAt a = d.valueAt a := by
  have width : (d.features.names.map a).length = d.features.size := List.length_map _
  rw [valueAt, h.environment_names, h.feature_names, List.map_append, ← Partition.movedOf_map,
    ← Partition.keptOf_map, h.values]
  refine entry_splitColumns (splits_columnSplitting h.parts) shaped.rows h.environment_rows
    h.feature_rows ?_ ?_
  · intro f hf hparts
    rw [Prod.mk.injEq] at hparts
    exact h.parts.row_ext (d.features.width f hf) width hparts.1 hparts.2
  · intro e he block _ joined
    exact List.append_inj joined (by rw [d.environments.width e he, List.length_map])

theorem gradientAt_eq (h : MovedToEnvironments p d d') (shaped : d.Shaped) (a : Assignment)
    (suffix : List Int) : d'.gradientAt a suffix = d.gradientAt a suffix := by
  refine map_eq_of_rel h.gradients fun g g' hg split => ?_
  have old := shaped.gradients g hg
  have width : (d.features.names.map a).length = d.features.size := List.length_map _
  have start : (d.environments.names.map a).length = d.environments.names.length :=
    List.length_map _
  have row_eq : d'.environments.names.map a ++ suffix
      = (d.environments.names.map a ++ suffix).take d.environments.names.length
        ++ p.movedOf (d.features.names.map a)
        ++ (d.environments.names.map a ++ suffix).drop d.environments.names.length := by
    rw [List.take_left' start, List.drop_left' start, h.environment_names, List.map_append,
      Partition.movedOf_map]
  rw [row_eq, h.feature_names, ← Partition.keptOf_map, split.values]
  refine entry_splitColumns (splits_columnSplitting h.parts) old.rows split.rows h.feature_rows ?_ ?_
  · intro f hf hparts
    rw [Prod.mk.injEq] at hparts
    exact h.parts.row_ext (d.features.width f hf) width hparts.1 hparts.2
  · intro row hrow block hblock joined
    have hlength : block.length = (p.movedOf (d.features.names.map a)).length := by
      rw [length_block h.parts hblock, Partition.movedOf_map, List.length_map]
    have start' : ((d.environments.names.map a ++ suffix).take d.environments.names.length).length
        = d.environments.names.length := by rw [List.take_left' start, start]
    exact insert_inj ((length_take old.names hrow).trans start'.symm) hlength joined

theorem sameMeaning (h : MovedToEnvironments p d d') (shaped : d.Shaped) : SameMeaning d d' where
  names := by
    rw [h.environment_names, h.feature_names, List.append_assoc]
    exact (h.parts.perm _ rfl).append_left _
  values := h.valueAt_eq shaped
  suffix := by
    refine map_eq_of_rel h.gradients fun g g' _ split => ?_
    rw [split.names, Labels.size, h.environment_names, List.drop_left' rfl]
    rfl
  gradients := h.gradientAt_eq shaped

theorem wellFormed (h : MovedToEnvironments p d d') (wf : d.WellFormed) : d'.WellFormed where
  toShaped := h.shaped wf.toShaped
  disjoint := by
    rw [h.environment_names, h.feature_names, List.disjoint_append_left]
    refine ⟨fun name hname hkept => ?_, h.parts.disjoint_names⟩
    exact wf.disjoint hname (h.parts.keptOf_subset rfl hkept)

end MovedToEnvironments

namespace MovedToFeatures

theorem valueAt_eq (h : MovedToFeatures p d d') (shaped : d.Shaped) (a : Assignment) :
    d'.valueAt a = d.valueAt a := by
  have width : (d.environments.names.map a).length = d.environments.size := List.length_map _
  rw [valueAt, h.environment_names, h.feature_names, List.map_append, ← Partition.movedOf_map,
    ← Partition.keptOf_map, h.values]
  refine entry_splitRows d.values (splits_rowSplitting h.parts) shaped.columns
    h.environment_rows h.feature_rows _ _ ?_ ?_
  · intro e he hparts
    rw [Prod.mk.injEq] at hparts
    exact h.parts.row_ext (d.environments.width e he) width hparts.2 hparts.1
  · intro block hblock
    obtain ⟨e, he, rfl⟩ := mem_rowSplitting_seconds.1 hblock
    exact (h.parts.length_movedOf (d.environments.width e he)).trans
      (h.parts.length_movedOf width).symm

theorem gradientAt_eq (h : MovedToFeatures p d d') (shaped : d.Shaped) (a : Assignment)
    (suffix : List Int) : d'.gradientAt a suffix = d.gradientAt a suffix := by
  refine map_eq_of_rel h.gradients fun g g' hg merged => ?_
  have old := shaped.gradients g hg
  have width : (d.environments.names.map a).length = d.environments.size := List.length_map _
  have parts_eq : gradientParts p d.environments.size (d.environments.names.map a ++ suffix)
      = (d'.environments.names.map a ++ suffix, p.movedOf (d.environments.names.map a)) := by
    rw [gradientParts, List.take_left' width, List.drop_left' width, h.environment_names,
      Partition.keptOf_map]
  have moved := entry_splitRows g.values
    (splits_gradientSplitting h.parts old.names merged.known) old.columns merged.rows
    h.feature_rows (d.environments.names.map a ++ suffix) (d.features.names.map a) ?_ ?_
  · rw [parts_eq] at moved
    rw [h.feature_names, List.map_append, ← Partition.movedOf_map, merged.values]
    exact moved
  · intro row hrow hparts
    refine gradientParts_inj h.parts (length_take old.names hrow) ?_ hparts
    rw [List.take_left' width, width]
  · intro block hblock
    obtain ⟨e, he, rfl⟩ := mem_rowSplitting_seconds.1 hblock
    rw [parts_eq]
    exact (h.parts.length_movedOf (d.environments.width e he)).trans
      (h.parts.length_movedOf width).symm

theorem sameMeaning (h : MovedToFeatures p d d') (shaped : d.Shaped) : SameMeaning d d' where
  names := by
    rw [h.environment_names, h.feature_names, ← List.append_assoc]
    exact (List.perm_append_comm.trans (h.parts.perm _ rfl)).append_right _
  values := h.valueAt_eq shaped
  suffix := by
    refine map_eq_of_rel h.gradients fun g g' _ merged => ?_
    rw [merged.names, Labels.size, h.environment_names, List.drop_left' rfl]
  gradients := h.gradientAt_eq shaped

theorem wellFormed (h : MovedToFeatures p d d') (wf : d.WellFormed) : d'.WellFormed where
  toShaped := h.shaped wf.toShaped
  disjoint := by
    rw [h.environment_names, h.feature_names, List.disjoint_append_right]
    refine ⟨List.disjoint_comm.1 h.parts.disjoint_names, fun name hkept hname => ?_⟩
    exact wf.disjoint (h.parts.keptOf_subset rfl hkept) hname

end MovedToFeatures

end Steps

/-! ### Many calls -/

/-- A call that moves variables from one axis to the other one. -/
inductive Move where
  | toEnvironments (wanted : List String)
  | toFeatures (wanted : List String)

/-- Make a call. -/
def Move.apply : Move → Traced (Descriptor α) Unit
  | toEnvironments wanted => densify wanted
  | toFeatures wanted => densifyToFeatures wanted

/-- Make one call after the other, up to the first one that fails. -/
def moveAll (moves : List Move) : Traced (Descriptor α) Unit := moves.forM Move.apply

theorem ensures_move (move : Move) {d : Descriptor α} (wf : d.WellFormed) :
    Ensures move.apply d fun _ d' => d'.WellFormed ∧ SameMeaning d d' := by
  cases move with
  | toEnvironments wanted =>
    refine ensures_mono (ensures_densify wanted d) ?_
    rintro r d' (rfl | ⟨-, p, moved⟩)
    · exact ⟨wf, .refl _⟩
    · exact ⟨moved.wellFormed wf, moved.sameMeaning wf.toShaped⟩
  | toFeatures wanted =>
    refine ensures_mono (ensures_densifyToFeatures wanted d) ?_
    rintro r d' (rfl | ⟨-, p, moved⟩)
    · exact ⟨wf, .refl _⟩
    · exact ⟨moved.wellFormed wf, moved.sameMeaning wf.toShaped⟩

theorem ensures_moveAll : ∀ (moves : List Move) {d : Descriptor α}, d.WellFormed →
    Ensures (moveAll moves) d fun _ d' => d'.WellFormed ∧ SameMeaning d d'
  | [], d, wf => ensures_pure ⟨wf, .refl d⟩
  | move :: moves, d, wf => by
    refine ensures_bind (ensures_mono (ensures_move move wf) ?_)
    rintro r d' ⟨wf', same⟩
    cases r with
    | error e => exact ⟨wf', same⟩
    | ok _ =>
      dsimp only [andThen]
      exact ensures_mono (ensures_moveAll moves wf') fun _ d'' h => ⟨h.1, same.trans h.2⟩

/-- However variables are moved to and fro, a descriptor keeps its meaning. -/
theorem sameMeaning_moveAll {d : Descriptor α} (wf : d.WellFormed) (moves : List Move) :
    ((moveAll moves).outcome d).2.1.WellFormed ∧ SameMeaning d ((moveAll moves).outcome d).2.1 :=
  (ensures_moveAll moves wf).outcome

/-- Two atoms with two values each, and two gradient rows. -/
def twoAtoms : Descriptor Float where
  values := ⟨2, 2, #[1, 2, 3, 4], rfl⟩
  environments :=
    { names := ["structure", "center"]
      rows := [[0, 0], [0, 1]]
      names_valid := ⟨by decide, by decide⟩
      width := by decide
      nodup := by decide }
  features :=
    { names := ["species", "rank"]
      rows := [[1, 0], [6, 1]]
      names_valid := ⟨by decide, by decide⟩
      width := by decide
      nodup := by decide }
  gradients := some
    { labels :=
        { names := ["structure", "center", "neighbor", "spatial"]
          rows := [[0, 0, 1, 0], [0, 1, 0, 2]]
          names_valid := ⟨by decide, by decide⟩
          width := by decide
          nodup := by decide }
      values := ⟨2, 2, #[5, 6, 7, 8], rfl⟩ }
  computed := true

theorem wellFormed_twoAtoms : twoAtoms.WellFormed where
  rows := rfl
  columns := rfl
  gradients := by
    rintro g ⟨⟩
    exact ⟨rfl, rfl, by decide⟩
  disjoint := by
    intro name hname hname'
    simp only [twoAtoms, List.mem_cons, List.not_mem_nil, or_false] at hname hname'
    rcases hname with rfl | rfl <;> simp at hname'

/-- The last cell of each array keeps its value while the variables of its labels go to and fro. -/
theorem sameMeaning_moveAll_twoAtoms :
    let a : Assignment := fun name =>
      if name = "structure" then 0 else if name = "species" then 6 else 1
    let d := ((moveAll [.toFeatures ["center"], .toEnvironments ["species", "center"]]).outcome
      twoAtoms).2.1
    twoAtoms.WellFormed ∧ d.WellFormed ∧ d.valueAt a = 4 ∧ d.gradientAt a [0, 2] = some 8 := by
  obtain ⟨wf, same⟩ := sameMeaning_moveAll wellFormed_twoAtoms
    [.toFeatures ["center"], .toEnvironments ["species", "center"]]
  exact ⟨wellFormed_twoAtoms, wf, (same.values _).trans rfl, (same.gradients _ _).trans rfl⟩

end Descriptor

end Atomistic
