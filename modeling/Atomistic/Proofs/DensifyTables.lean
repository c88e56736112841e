import Atomistic.Proofs.ChosenVariables
import Atomistic.Proofs.DescriptorShape

/-!
# The tables that densification builds

Densification puts new tables together from pieces of old ones. Rows that are joined from distinct
pieces of known widths are distinct, and names stay valid as long as none comes up twice, so all of
these tables are there. What a call answers is then decided before anything is built, by the names
that are asked for. Only gradients add something to it: their rows may have a variable that is moved
to them already, or belong to an environment that is not there.
-/

namespace Atomistic

open Traced

/-! ### Names -/

theorem NamesValid.append {names others : List String} (h : NamesValid names)
    (h' : NamesValid others) (apart : names.Disjoint others) : NamesValid (names ++ others) where
  identifiers name hname := (List.mem_append.1 hname).elim (h.identifiers name) (h'.identifiers name)
  nodup := h.nodup.append h'.nodup apart

/-- Names stay valid when new ones are put among them. -/
theorem NamesValid.insert {names others suffix : List String} (h : NamesValid (names ++ suffix))
    (h' : NamesValid others) (apart : (names ++ suffix).Disjoint others) :
    NamesValid (names ++ others ++ suffix) := by
  have perm : (names ++ others ++ suffix).Perm (names ++ suffix ++ others) := by
    rw [List.append_assoc, List.append_assoc]
    exact List.perm_append_comm.append_left _
  have all := h.append h' apart
  exact all.of_subset perm.subset (perm.nodup_iff.2 all.nodup)

namespace Descriptor

variable {α : Type} [Scalar α] {p : Partition} {environments features : Labels}

/-! ### Moving variables to the environments -/

theorem nodup_columnSplitting_firsts : (columnSplitting p features).firsts.toList.Nodup := by
  rw [columnSplitting, firsts_ofParts]
  exact nodup_firstSeen _

/-- Environments with the variables that are new to them. -/
theorem exists_environments (parts : p.Parts features.size)
    (fresh : environments.names.Disjoint (p.movedOf features.names)) :
    ∃ t, Labels.ofRows (environments.names ++ p.movedOf features.names)
      (environments.rows.flatMap fun e =>
        (columnSplitting p features).firsts.toList.map fun block => e ++ block) = .ok t := by
  refine Labels.exists_ofRows ?_ ?_ ?_
  · exact environments.names_valid.append (Partition.namesValid_movedOf parts) fresh
  · intro row hrow
    obtain ⟨e, he, hrow⟩ := List.mem_flatMap.1 hrow
    obtain ⟨block, hblock, rfl⟩ := List.mem_map.1 hrow
    rw [List.length_append, List.length_append, environments.width e he, length_block parts hblock]
  · refine nodup_flatMap_map environments.nodup (fun _ _ => nodup_columnSplitting_firsts) ?_
    intro e he block _ e' he' block' _ same
    exact List.append_inj same ((environments.width e he).trans (environments.width e' he').symm)

theorem checkUnique_of_nodup {names : List String} (h : names.Nodup) : checkUnique names = .ok () := by
  rw [checkUnique, Partition.repeated?_of_nodup h]

/-- Gradient rows with a block of labels put in after those of their environments. -/
theorem exists_widerRows {t : Labels} {suffix : List String}
    (names : environments.names ++ suffix = t.names) (parts : p.Parts features.size)
    (fresh : t.names.Disjoint (p.movedOf features.names)) :
    ∃ wider, Labels.ofRows (environments.names ++ p.movedOf features.names ++ suffix)
      (t.rows.flatMap fun row => (columnSplitting p features).firsts.toList.map fun block =>
        row.take environments.names.length ++ block ++ row.drop environments.names.length)
        = .ok wider := by
  have start {row : List Int} (hrow : row ∈ t.rows) :
      (row.take environments.names.length).length = environments.names.length :=
    length_take ⟨suffix, names⟩ hrow
  refine Labels.exists_ofRows ?_ ?_ ?_
  · rw [← names] at fresh
    exact NamesValid.insert (names ▸ t.names_valid) (Partition.namesValid_movedOf parts) fresh
  · intro row' hrow'
    obtain ⟨row, hrow, hrow'⟩ := List.mem_flatMap.1 hrow'
    obtain ⟨block, hblock, rfl⟩ := List.mem_map.1 hrow'
    have width := congrArg List.length names
    simp only [List.length_append, start hrow, length_block parts hblock, List.length_drop,
      t.width row hrow] at width ⊢
    omega
  · refine nodup_flatMap_map t.nodup (fun _ _ => nodup_columnSplitting_firsts) ?_
    intro row hrow block hblock row' hrow' block' hblock' same
    exact insert_inj ((start hrow).trans (start hrow').symm)
      ((length_block parts hblock).trans (length_block parts hblock').symm) same

/-- Gradient rows with the variables that are new to all of theirs. -/
theorem exists_gradientsToEnvironments {g : Gradients α} (names : environments.names <+: g.labels.names)
    (parts : p.Parts features.size) (fresh : g.labels.names.Disjoint (p.movedOf features.names)) :
    ∃ g', gradientsToEnvironments g (columnSplitting p features) environments.names
      (p.movedOf features.names) = .ok g' := by
  obtain ⟨suffix, hsuffix⟩ := names
  have drop : g.labels.names.drop environments.names.length = suffix := by
    rw [← hsuffix, List.drop_left]
  obtain ⟨wider, hwider⟩ := exists_widerRows hsuffix parts fresh
  have unique : checkUnique (environments.names ++ p.movedOf features.names ++ suffix) = .ok () := by
    rw [← (Labels.ofRows_eq_ok.1 hwider).1]
    exact checkUnique_of_nodup wider.names_valid.nodup
  exact ⟨_, except_bind_eq_ok.2 ⟨(), drop ▸ unique, except_bind_eq_ok.2 ⟨wider, drop ▸ hwider, rfl⟩⟩⟩

/-! ### Moving variables to the features -/

theorem nodup_rowSplitting_seconds : (rowSplitting p environments).seconds.toList.Nodup := by
  rw [rowSplitting, seconds_ofParts]
  exact nodup_firstSeen _

theorem length_rowSplitting_second (parts : p.Parts environments.size) {block : List Int}
    (h : block ∈ (rowSplitting p environments).seconds.toList) :
    block.length = (p.movedOf environments.names).length := by
  obtain ⟨e, he, rfl⟩ := mem_rowSplitting_seconds.1 h
  rw [parts.length_movedOf (environments.width e he), parts.length_movedOf rfl]

/-- Features with the variables that are new to them. -/
theorem exists_features (parts : p.Parts environments.size)
    (fresh : (p.movedOf environments.names).Disjoint features.names) :
    ∃ t, Labels.ofRows (p.movedOf environments.names ++ features.names)
      ((rowSplitting p environments).seconds.toList.flatMap fun block =>
        features.rows.map fun f => block ++ f) = .ok t := by
  refine Labels.exists_ofRows ?_ ?_ ?_
  · exact (Partition.namesValid_movedOf parts).append features.names_valid fresh
  · intro row hrow
    obtain ⟨block, hblock, hrow⟩ := List.mem_flatMap.1 hrow
    obtain ⟨f, hf, rfl⟩ := List.mem_map.1 hrow
    rw [List.length_append, List.length_append, features.width f hf,
      length_rowSplitting_second parts hblock]
  · refine nodup_flatMap_map nodup_rowSplitting_seconds (fun _ _ => features.nodup) ?_
    intro block hblock f _ block' hblock' f' _ same
    exact List.append_inj same ((length_rowSplitting_second parts hblock).trans
      (length_rowSplitting_second parts hblock').symm)

/-- Gradient rows without some of the labels of their environments. -/
theorem exists_narrowerRows {t : Labels} {suffix : List String}
    (names : environments.names ++ suffix = t.names) (parts : p.Parts environments.size) :
    ∃ narrower, Labels.ofRows (p.keptOf environments.names ++ suffix)
      (gradientSplitting p environments t).firsts.toList = .ok narrower := by
  have stays : p.keptOf environments.names ⊆ environments.names := parts.keptOf_subset rfl
  have valid : NamesValid (environments.names ++ suffix) := names ▸ t.names_valid
  refine Labels.exists_ofRows ?_ ?_ ?_
  · obtain ⟨-, nodup, apart⟩ := List.nodup_append'.1 valid.nodup
    refine valid.of_subset (fun name hname => ?_) ?_
    · rw [List.mem_append] at hname ⊢
      exact hname.imp_left (stays ·)
    · exact (Partition.namesValid_keptOf parts).nodup.append nodup
        (List.disjoint_of_subset_left stays apart)
  · intro row' hrow'
    obtain ⟨row, hrow, rfl⟩ := mem_gradientSplitting_firsts.1 hrow'
    have start : (row.take environments.size).length = environments.size :=
      length_take ⟨suffix, names⟩ hrow
    have width := congrArg List.length names
    rw [List.length_append] at width
    rw [gradientParts, List.length_append, List.length_append, parts.length_keptOf start,
      parts.length_keptOf rfl, List.length_drop, t.width row hrow, ← width]
    exact congrArg _ (Nat.add_sub_cancel_left ..)
  · rw [gradientSplitting]
    change (Splitting.ofParts _).firsts.toList.Nodup
    rw [firsts_ofParts]
    exact nodup_firstSeen _

/-- Gradient rows that belong to environments are there again without some of the variables. -/
theorem exists_gradientsToFeatures {g : Gradients α} (names : environments.names <+: g.labels.names)
    (parts : p.Parts environments.size) (rooted : g.Rooted environments) :
    ∃ g', gradientsToFeatures g p environments (rowSplitting p environments).seconds = .ok g' := by
  obtain ⟨suffix, hsuffix⟩ := names
  have drop : g.labels.names.drop environments.size = suffix := by
    rw [← hsuffix]
    exact List.drop_left
  obtain ⟨narrower, hnarrower⟩ := exists_narrowerRows hsuffix parts
  have known := except_mapM_eq_map fun row hrow =>
    knownParts_eq_ok.2 ⟨rooted row hrow, (rfl : gradientParts p environments.size row = _)⟩
  rw [gradientsToFeatures_eq]
  exact ⟨_, except_bind_eq_ok.2 ⟨_, known, except_bind_eq_ok.2 ⟨narrower, drop ▸ hnarrower, rfl⟩⟩⟩

/-! ### Answers -/

theorem exists_option_mapM {β γ : Type} {f : β → Except Error γ} {x : Option β}
    (h : ∀ b, x = some b → ∃ c, f b = .ok c) : ∃ y, x.mapM f = .ok y := by
  cases x with
  | none => exact ⟨none, rfl⟩
  | some b =>
    obtain ⟨c, hc⟩ := h b rfl
    exact ⟨some c, except_bind_eq_ok.2 ⟨c, hc, rfl⟩⟩

variable {d : Descriptor α} {wanted : List String}

/-- A call answers as its list of names does and, if that leaves something to move, as the
gradients do. -/
theorem ensures_densify_eq (wanted : List String) (d : Descriptor α) :
    Ensures (densify wanted) d fun r _ =>
      r = (Partition.chosen wanted d.features d.environments).bind fun p =>
        if p.moved.isEmpty then .ok () else
          (d.gradients.mapM fun g => gradientsToEnvironments g (columnSplitting p d.features)
            d.environments.names (p.movedOf d.features.names)).map fun _ => () := by
  refine ensures_within (ensures_value_bind (ensures_stateless_bind (ensures_mono
    (Partition.ensures_ofNames wanted d.features d.environments) ?_)))
  rintro r _ rfl
  cases chosen : Partition.chosen wanted d.features d.environments with
  | error e => rfl
  | ok p =>
    obtain ⟨-, -, parts, new⟩ := Partition.chosen_eq_ok chosen
    dsimp only [andThen, Except.bind]
    split
    · exact ensures_pure rfl
    have apart : d.environments.names.Disjoint (p.movedOf d.features.names) :=
      fun name there moves => (new name moves).2 there
    obtain ⟨environments, henvironments⟩ := exists_environments parts apart
    obtain ⟨features, hfeatures⟩ := exists_keptTable parts
      (columnSplitting p d.features).seconds.toList
      (by rw [columnSplitting, seconds_ofParts, List.map_map]; rfl)
    refine ensures_log_bind (ensures_of_ok_bind henvironments (ensures_ofExcept_bind ?_ ?_))
    · intro gradients hgradients
      rw [columnSplitting, hgradients]
      exact ensures_setValue_bind (ensures_of_ok_bind hfeatures (ensures_setValue rfl))
    · intro e he
      rw [columnSplitting, he]
      rfl

/-- A call answers as its list of names does, if no gradient row has a variable that moves. -/
theorem ensures_densify_answer (shaped : d.Shaped)
    (fresh : ∀ p, Partition.chosen wanted d.features d.environments = .ok p →
      ∀ g, d.gradients = some g → g.labels.names.Disjoint (p.movedOf d.features.names)) :
    Ensures (densify wanted) d fun r _ =>
      r = (Partition.chosen wanted d.features d.environments).map fun _ => () := by
  refine ensures_mono (ensures_densify_eq wanted d) ?_
  rintro _ _ rfl
  cases chosen : Partition.chosen wanted d.features d.environments with
  | error e => rfl
  | ok p =>
    have parts := (Partition.chosen_eq_ok chosen).parts
    obtain ⟨gradients, hgradients⟩ := exists_option_mapM fun g hg =>
      exists_gradientsToEnvironments (shaped.gradients g hg).names parts (fresh p chosen g hg)
    simp only [Except.bind, hgradients, Except.map, ite_self]

theorem ensures_densifyToFeatures_eq (wanted : List String) (d : Descriptor α) :
    Ensures (densifyToFeatures wanted) d fun r _ =>
      r = (Partition.chosen wanted d.environments d.features).bind fun p =>
        if p.moved.isEmpty then .ok () else
          (d.gradients.mapM fun g => gradientsToFeatures g p d.environments
            (rowSplitting p d.environments).seconds).map fun _ => () := by
  refine ensures_within (ensures_value_bind (ensures_stateless_bind (ensures_mono
    (Partition.ensures_ofNames wanted d.environments d.features) ?_)))
  rintro r _ rfl
  cases chosen : Partition.chosen wanted d.environments d.features with
  | error e => rfl
  | ok p =>
    obtain ⟨-, -, parts, new⟩ := Partition.chosen_eq_ok chosen
    dsimp only [andThen, Except.bind]
    split
    · exact ensures_pure rfl
    have apart : (p.movedOf d.environments.names).Disjoint d.features.names :=
      fun name moves there => (new name moves).2 there
    obtain ⟨features, hfeatures⟩ := exists_features parts apart
    obtain ⟨environments, henvironments⟩ := exists_keptTable parts
      (rowSplitting p d.environments).firsts.toList
      (by rw [rowSplitting, firsts_ofParts, List.map_map]; rfl)
    refine ensures_log_bind (ensures_of_ok_bind hfeatures (ensures_ofExcept_bind ?_ ?_))
    · intro gradients hgradients
      rw [rowSplitting, hgradients]
      exact ensures_setValue_bind (ensures_of_ok_bind henvironments (ensures_setValue rfl))
    · intro e he
      rw [rowSplitting, he]
      rfl

theorem ensures_densifyToFeatures_answer (shaped : d.Shaped) (rooted : d.Rooted) :
    Ensures (densifyToFeatures wanted) d fun r _ =>
      r = (Partition.chosen wanted d.environments d.features).map fun _ => () := by
  refine ensures_mono (ensures_densifyToFeatures_eq wanted d) ?_
  rintro _ _ rfl
  cases chosen : Partition.chosen wanted d.environments d.features with
  | error e => rfl
  | ok p =>
    have parts := (Partition.chosen_eq_ok chosen).parts
    obtain ⟨gradients, hgradients⟩ := exists_option_mapM fun g hg =>
      exists_gradientsToFeatures (shaped.gradients g hg).names parts (rooted g hg)
    simp only [Except.bind, hgradients, Except.map, ite_self]

end Descriptor

end Atomistic
