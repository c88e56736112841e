import Atomistic.Proofs.DensifyTables
import Atomistic.Proofs.Meaning

/-!
# Tables by the names of their variables

A caller knows variables by their names. Labels of some variables are looked up in a row by the names
of its table; what a partition takes from a row are the labels of the variables that it takes from
the names. So the tables that a call makes can be told without positions: which names are asked for
says what the new variables are, and the tuples of labels that these variables take in the old rows,
in the order in which they are first seen, are the new rows.
-/

namespace Atomistic

/-! ### Labels by name -/

namespace Labels

/-- The labels of some variables in a row of the table. -/
def part (t : Labels) (names : List String) (row : List Int) : List Int :=
  names.map fun name => row.getD (t.names.idxOf name) 0

/-- The variables that are not among the given ones, in their order. -/
def others (t : Labels) (names : List String) : List String :=
  t.names.filter fun name => !names.contains name

/-- The wanted variables of a table, in the order in which they are asked for. -/
def asked (t : Labels) (wanted : List String) : List String :=
  wanted.filter fun name => t.names.contains name

/-- The tuples of labels that some variables take, in the order in which they are first seen. -/
def tuples (t : Labels) (names : List String) : List (List Int) :=
  firstSeen (t.rows.map (t.part names))

theorem mem_asked {t : Labels} {wanted : List String} {name : String} :
    name ∈ t.asked wanted ↔ name ∈ wanted ∧ name ∈ t.names := by
  simp [asked]

theorem part_append (t : Labels) (names more : List String) (row : List Int) :
    t.part (names ++ more) row = t.part names row ++ t.part more row := List.map_append

theorem part_names (t : Labels) {row : List Int} (width : row.length = t.names.length) :
    t.part t.names row = row := Descriptor.map_getD_idxOf t.names_valid.nodup width

theorem length_part (t : Labels) (names : List String) (row : List Int) :
    (t.part names row).length = names.length := List.length_map _

/-- Labels that were assigned are found again. -/
theorem part_map (t : Labels) {names : List String} (known : names ⊆ t.names) (a : Assignment) :
    t.part names (t.names.map a) = names.map a := by
  refine List.map_congr_left fun name hname => ?_
  have there := List.idxOf_lt_length_of_mem (known hname)
  rw [List.getD_eq_getElem?_getD, List.getElem?_map, List.getElem?_eq_getElem there,
    List.getElem_idxOf there]
  rfl

/-- A row that was put together is taken apart again. -/
theorem part_of_append {t : Labels} {names more : List String} (h : t.names = names ++ more)
    {row other : List Int} (width : row.length = names.length)
    (width' : other.length = more.length) :
    t.part names (row ++ other) = row ∧ t.part more (row ++ other) = other := by
  have whole : t.part (names ++ more) (row ++ other) = row ++ other := by
    rw [← h]
    exact t.part_names (by rw [h, List.length_append, List.length_append, width, width'])
  rw [part_append] at whole
  exact List.append_inj whole (by rw [length_part, width])

theorem others_of_append_left {t : Labels} {names more : List String}
    (h : t.names = names ++ more) : t.others more = names := by
  have apart := List.disjoint_of_nodup_append (h ▸ t.names_valid.nodup)
  have gone : (more.filter fun name => !more.contains name) = [] := by simp
  have all : (names.filter fun name => !more.contains name) = names :=
    List.filter_eq_self.2 fun name hname => by simpa using fun again => apart hname again
  rw [others, h, List.filter_append, gone, all, List.append_nil]

theorem others_of_append_right {t : Labels} {names more : List String}
    (h : t.names = names ++ more) : t.others names = more := by
  have apart := List.disjoint_of_nodup_append (h ▸ t.names_valid.nodup)
  have gone : (names.filter fun name => !names.contains name) = [] := by simp
  have all : (more.filter fun name => !names.contains name) = more :=
    List.filter_eq_self.2 fun name hname => by simpa using fun again => apart again hname
  rw [others, h, List.filter_append, gone, all, List.nil_append]

theorem others_asked (t : Labels) (wanted : List String) :
    t.others (t.asked wanted) = t.others wanted := by
  refine List.filter_congr fun name hname => ?_
  simp [mem_asked, hname]

theorem asked_of_subset {t : Labels} {wanted : List String} (known : wanted ⊆ t.names) :
    t.asked wanted = wanted :=
  List.filter_eq_self.2 fun _ hname => List.contains_iff_mem.2 (known hname)

theorem others_subset (t : Labels) (names : List String) : t.others names ⊆ t.names :=
  List.filter_subset_self _

theorem others_nil (t : Labels) : t.others [] = t.names :=
  others_of_append_right (List.nil_append _).symm

theorem mem_tuples {t : Labels} {names : List String} {labels : List Int} :
    labels ∈ t.tuples names ↔ ∃ row ∈ t.rows, t.part names row = labels := by
  rw [tuples, mem_firstSeen, List.mem_map]

theorem nodup_tuples (t : Labels) (names : List String) : (t.tuples names).Nodup :=
  nodup_firstSeen _

theorem tuples_ne_nil {t : Labels} (some : t.rows ≠ []) (names : List String) :
    t.tuples names ≠ [] := by
  obtain ⟨row, rows, h⟩ := List.exists_cons_of_ne_nil some
  refine List.ne_nil_of_mem (mem_tuples.2 ⟨row, ?_, rfl⟩)
  rw [h]
  exact List.mem_cons_self

theorem tuples_names (t : Labels) : t.tuples t.names = t.rows := by
  have same : t.rows.map (t.part t.names) = t.rows := by
    refine (List.map_congr_left fun row hrow => ?_).trans (List.map_id _)
    exact t.part_names (t.width row hrow)
  rw [tuples, same, firstSeen_of_nodup t.nodup]

theorem tuples_nil {t : Labels} (some : t.rows ≠ []) : t.tuples [] = [[]] := by
  have once := firstSeen_flatMap_map_const some (List.nodup_singleton ([] : List Int))
  rwa [List.flatMap_singleton] at once

end Labels

namespace Partition

variable {p : Partition} {t source target : Labels} {wanted : List String}

/-- What moves of a row are the labels of the variables that move. -/
theorem movedOf_eq_part (p : Partition) {row : List Int} (width : row.length = t.names.length) :
    p.movedOf row = t.part (p.movedOf t.names) row := by
  conv_lhs => rw [← t.part_names width]
  exact p.movedOf_map _ _

/-- What stays of a row are the labels of the variables that stay. -/
theorem keptOf_eq_part (p : Partition) {row : List Int} (width : row.length = t.names.length) :
    p.keptOf row = t.part (p.keptOf t.names) row := by
  conv_lhs => rw [← t.part_names width]
  exact p.keptOf_map _ _

/-- The positions of names pick these names. -/
theorem pick_positions {names : List String} (known : wanted ⊆ names) :
    pick (wanted.map names.idxOf) names = wanted := by
  rw [pick, List.filterMap_map]
  refine (List.filterMap_congr fun name hname => ?_).trans (List.filterMap_some ..)
  exact List.getElem?_idxOf (known hname)

/-- All other positions pick the other names. -/
theorem pick_others {names : List String} (distinct : names.Nodup) :
    pick ((List.range names.length).filter fun i => !(wanted.map names.idxOf).contains i) names
      = names.filter fun name => !wanted.contains name := by
  have stays : ∀ i ∈ List.range names.length,
      (if (!(wanted.map names.idxOf).contains i) = true then names[i]? else none)
        = (names[i]?).filter fun name => !wanted.contains name := by
    intro i hi
    have hi : i < names.length := List.mem_range.1 hi
    have moves : i ∈ wanted.map names.idxOf ↔ names[i] ∈ wanted := by
      constructor
      · intro moved
        obtain ⟨name, hname, rfl⟩ := List.mem_map.1 moved
        rwa [List.getElem_idxOf]
      · intro moved
        exact List.mem_map.2 ⟨_, moved, distinct.idxOf_getElem i hi⟩
    rw [List.getElem?_eq_getElem hi, Option.filter_some]
    simp [moves]
  rw [pick, List.filterMap_filter, List.filterMap_congr stays, ← List.filter_filterMap]
  exact congrArg (List.filter _) (pick_range names)

/-- Names are located when each of them is a variable of exactly one of the two axes. -/
theorem mapM_locate_eq_ok {located : List (Option Nat)} :
    wanted.mapM (locate source target) = .ok located ↔
      (∀ name ∈ wanted, (name ∈ source.names ↔ name ∉ target.names)) ∧
        located = wanted.map source.names.idxOf? := by
  have found (name : String) : (source.names.idxOf? name).isSome ↔ name ∈ source.names := by
    rw [← not_iff_not, Bool.not_eq_true, Option.isSome_eq_false_iff, Option.isNone_iff_eq_none,
      List.idxOf?_eq_none_iff]
  constructor
  · intro h
    constructor
    · intro name hname
      obtain ⟨i, hi⟩ := exists_mapM_eq_ok.1 ⟨located, h⟩ name hname
      obtain ⟨rfl, there⟩ := locate_eq_ok.1 hi
      exact (found name).symm.trans there
    · have each := (except_mapM_eq_ok.1 h).imp fun name i hi => (locate_eq_ok.1 hi).1
      exact (List.forall₂_eq_eq_eq ▸ List.forall₂_map_left_iff.2 each :
        wanted.map source.names.idxOf? = located).symm
  · rintro ⟨single, rfl⟩
    exact except_mapM_eq_map fun name hname =>
      locate_eq_ok.2 ⟨rfl, (found name).trans (single name hname)⟩

/-- The positions that are found for some names are those of the variables among them. -/
theorem reduceOption_idxOf? (t : Labels) : ∀ wanted : List String,
    (wanted.map t.names.idxOf?).reduceOption = (t.asked wanted).map t.names.idxOf
  | [] => rfl
  | name :: wanted => by
    rw [List.map_cons, Labels.asked, List.filter_cons, ← Labels.asked]
    split
    · next there =>
      have found : t.names.idxOf? name = some (t.names.idxOf name) :=
        List.findIdx?_eq_some_iff_findIdx_eq.2
          ⟨List.idxOf_lt_length_of_mem (List.contains_iff_mem.1 there), rfl⟩
      rw [found, List.reduceOption_cons_of_some, reduceOption_idxOf? t wanted, List.map_cons]
    · next missing =>
      have lost : t.names.idxOf? name = none :=
        List.idxOf?_eq_none_iff.2 fun there => missing (List.contains_iff_mem.2 there)
      rw [lost, List.reduceOption_cons_of_none, reduceOption_idxOf? t wanted]

/-- The partition that moves the variables of `source` that are wanted. -/
def ofAsked (wanted : List String) (source : Labels) : Partition :=
  let moved := (source.asked wanted).map source.names.idxOf
  ⟨moved, (List.range source.size).filter fun i => !moved.contains i⟩

/-- Variables are chosen when no name is asked for twice and each is a variable of exactly one of the
two axes. -/
theorem chosen_eq_ok_iff : chosen wanted source target = .ok p ↔
    wanted.Nodup ∧ (∀ name ∈ wanted, (name ∈ source.names ↔ name ∉ target.names)) ∧
      p = ofAsked wanted source := by
  rw [chosen]
  constructor
  · intro h
    cases again : repeated? [] wanted with
    | some name =>
      rw [again] at h
      cases h
    | none =>
      rw [again] at h
      obtain ⟨located, hlocated, h⟩ := except_bind_eq_ok.1 h
      obtain ⟨single, rfl⟩ := mapM_locate_eq_ok.1 hlocated
      cases h
      exact ⟨(repeated?_eq_none again).1, single, by rw [reduceOption_idxOf?]; rfl⟩
  · rintro ⟨nodup, single, rfl⟩
    rw [repeated?_of_nodup nodup]
    refine except_bind_eq_ok.2 ⟨_, mapM_locate_eq_ok.2 ⟨single, rfl⟩, ?_⟩
    rw [reduceOption_idxOf?]
    rfl

/-- Names are refused when there is a reason for it. -/
theorem exists_error_iff_refused :
    (∃ e, chosen wanted source target = .error e) ↔ ∃ e, Refused wanted source target e := by
  constructor
  · rintro ⟨e, h⟩
    exact ⟨e, refused_of_chosen h⟩
  · rintro ⟨_, refused⟩
    cases h : chosen wanted source target with
    | error e => exact ⟨e, rfl⟩
    | ok p =>
      obtain ⟨nodup, single, -⟩ := chosen_eq_ok_iff.1 h
      exact absurd refused (not_refused nodup single)

theorem movedOf_ofAsked (wanted : List String) (source : Labels) :
    (ofAsked wanted source).movedOf source.names = source.asked wanted :=
  pick_positions fun _ hname => (Labels.mem_asked.1 hname).2

theorem keptOf_ofAsked (wanted : List String) (source : Labels) :
    (ofAsked wanted source).keptOf source.names = source.others wanted :=
  (pick_others source.names_valid.nodup).trans (source.others_asked wanted)

/-- Distinct variables of the source are moved as they are asked for, and the others stay. -/
theorem exists_chosen (nodup : wanted.Nodup) (known : wanted ⊆ source.names)
    (apart : source.names.Disjoint target.names) :
    ∃ p, chosen wanted source target = .ok p ∧ p.Parts source.size ∧
      p.movedOf source.names = wanted ∧ p.keptOf source.names = source.others wanted := by
  have found : chosen wanted source target = .ok (ofAsked wanted source) :=
    chosen_eq_ok_iff.2 ⟨nodup, fun name hname =>
      iff_of_true (known hname) (apart (known hname)), rfl⟩
  exact ⟨_, found, (chosen_eq_ok found).parts,
    (movedOf_ofAsked wanted source).trans (Labels.asked_of_subset known),
    keptOf_ofAsked wanted source⟩

end Partition

/-! ### Calls by name -/

namespace Descriptor

open Traced

variable {α : Type} [Scalar α] {p : Partition} {d d' : Descriptor α} {wanted : List String}
  {t gradients : Labels}

theorem firstSeen_movedOf : firstSeen (t.rows.map p.movedOf) = t.tuples (p.movedOf t.names) :=
  congrArg firstSeen (List.map_congr_left fun row hrow => p.movedOf_eq_part (t.width row hrow))

theorem firstSeen_keptOf : firstSeen (t.rows.map p.keptOf) = t.tuples (p.keptOf t.names) :=
  congrArg firstSeen (List.map_congr_left fun row hrow => p.keptOf_eq_part (t.width row hrow))

theorem columnSplitting_firsts :
    (columnSplitting p t).firsts.toList = t.tuples (p.movedOf t.names) := by
  rw [columnSplitting, firsts_ofParts, List.map_map]
  exact firstSeen_movedOf

theorem columnSplitting_seconds :
    (columnSplitting p t).seconds.toList = t.tuples (p.keptOf t.names) := by
  rw [columnSplitting, seconds_ofParts, List.map_map]
  exact firstSeen_keptOf

theorem rowSplitting_firsts :
    (rowSplitting p t).firsts.toList = t.tuples (p.keptOf t.names) := by
  rw [rowSplitting, firsts_ofParts, List.map_map]
  exact firstSeen_keptOf

theorem rowSplitting_seconds :
    (rowSplitting p t).seconds.toList = t.tuples (p.movedOf t.names) := by
  rw [rowSplitting, seconds_ofParts, List.map_map]
  exact firstSeen_movedOf

/-- The labels of a gradient row without those that some variables of its environment have. -/
def narrowed (environments : Labels) (wanted : List String) (row : List Int) : List Int :=
  environments.part (environments.others wanted) (row.take environments.size)
    ++ row.drop environments.size

theorem gradientSplitting_firsts (start : t.names <+: gradients.names)
    (stays : p.keptOf t.names = t.others wanted) :
    (gradientSplitting p t gradients).firsts.toList
      = firstSeen (gradients.rows.map (narrowed t wanted)) := by
  have each : gradients.rows.map (fun row => (gradientParts p t.size row).1)
      = gradients.rows.map (narrowed t wanted) := by
    refine List.map_congr_left fun row hrow => ?_
    rw [gradientParts, narrowed, ← stays, p.keptOf_eq_part (length_take start hrow)]
  refine (firsts_ofParts _).trans ?_
  rw [List.map_map, ← each]
  rfl

/-- The labels of gradients after variables of the features were put behind those of the
environments. -/
structure Widened (environments features : Labels) (wanted : List String)
    (labels labels' : Labels) : Prop where
  names : labels'.names = environments.names ++ wanted ++ labels.names.drop environments.size
  rows : labels'.rows = labels.rows.flatMap fun row => (features.tuples wanted).map fun block =>
    row.take environments.size ++ block ++ row.drop environments.size

/-- The labels of gradients after variables of the environments were taken away. -/
structure Narrowed (environments : Labels) (wanted : List String) (labels labels' : Labels) :
    Prop where
  names : labels'.names = environments.others wanted ++ labels.names.drop environments.size
  rows : labels'.rows = firstSeen (labels.rows.map (narrowed environments wanted))

/-- The second descriptor has the wanted variables of the features behind the environments, and
otherwise the meaning of the first one. -/
structure BehindEnvironments (wanted : List String) (d d' : Descriptor α) : Prop
    extends SameMeaning d d' where
  wellFormed : d'.WellFormed
  rooted : d'.Rooted
  environment_names : d'.environments.names = d.environments.names ++ wanted
  environment_rows : d'.environments.rows = d.environments.rows.flatMap fun e =>
    (d.features.tuples wanted).map fun block => e ++ block
  feature_names : d'.features.names = d.features.others wanted
  feature_rows : d'.features.rows = d.features.tuples (d.features.others wanted)
  gradient_labels : Option.Rel (Widened d.environments d.features wanted)
    (d.labels? .gradients) (d'.labels? .gradients)
  computed : d'.computed = d.computed

/-- The second descriptor has the wanted variables of the environments in front of the features,
and otherwise the meaning of the first one. -/
structure BeforeFeatures (wanted : List String) (d d' : Descriptor α) : Prop
    extends SameMeaning d d' where
  wellFormed : d'.WellFormed
  rooted : d'.Rooted
  feature_names : d'.features.names = wanted ++ d.features.names
  feature_rows : d'.features.rows = (d.environments.tuples wanted).flatMap fun block =>
    d.features.rows.map fun f => block ++ f
  environment_names : d'.environments.names = d.environments.others wanted
  environment_rows : d'.environments.rows = d.environments.tuples (d.environments.others wanted)
  gradient_labels : Option.Rel (Narrowed d.environments wanted)
    (d.labels? .gradients) (d'.labels? .gradients)
  computed : d'.computed = d.computed

omit [Scalar α] in
theorem rel_labels {r : Gradients α → Gradients α → Prop} {q : Labels → Labels → Prop}
    (h : Option.Rel r d.gradients d'.gradients)
    (imp : ∀ g g', d.gradients = some g → r g g' → q g.labels g'.labels) :
    Option.Rel q (d.labels? .gradients) (d'.labels? .gradients) := by
  simp only [labels?]
  generalize d.gradients = x at *
  generalize d'.gradients = y at *
  cases h with
  | none => exact .none
  | some hg => exact .some (imp _ _ rfl hg)

theorem MovedToEnvironments.behindEnvironments (h : MovedToEnvironments p d d')
    (wf : d.WellFormed) (rooted : d.Rooted) (moves : p.movedOf d.features.names = wanted)
    (stays : p.keptOf d.features.names = d.features.others wanted) :
    BehindEnvironments wanted d d' where
  toSameMeaning := h.sameMeaning wf.toShaped
  wellFormed := h.wellFormed wf
  rooted := h.rooted wf.toShaped rooted
  environment_names := moves ▸ h.environment_names
  environment_rows := by rw [h.environment_rows, columnSplitting_firsts, moves]
  feature_names := h.feature_names.trans stays
  feature_rows := by rw [h.feature_rows, columnSplitting_seconds, stays]
  gradient_labels := rel_labels h.gradients fun g g' _ split =>
    ⟨by rw [split.names, moves]; rfl, by rw [split.rows, columnSplitting_firsts, moves]; rfl⟩
  computed := h.computed

theorem MovedToFeatures.beforeFeatures (h : MovedToFeatures p d d') (wf : d.WellFormed)
    (moves : p.movedOf d.environments.names = wanted)
    (stays : p.keptOf d.environments.names = d.environments.others wanted) :
    BeforeFeatures wanted d d' where
  toSameMeaning := h.sameMeaning wf.toShaped
  wellFormed := h.wellFormed wf
  rooted := h.rooted wf.toShaped
  feature_names := moves ▸ h.feature_names
  feature_rows := by rw [h.feature_rows, rowSplitting_seconds, moves]
  environment_names := h.environment_names.trans stays
  environment_rows := by rw [h.environment_rows, rowSplitting_firsts, stays]
  gradient_labels := rel_labels h.gradients fun g g' hg merged =>
    ⟨by rw [merged.names, stays],
      by rw [merged.rows, gradientSplitting_firsts (wf.gradients g hg).names stays]⟩
  computed := h.computed

/-- If nothing moves, the only tuple of what moves is the empty one. -/
theorem behindEnvironments_nil (wf : d.WellFormed) (rooted : d.Rooted)
    (some : d.features.rows ≠ []) : BehindEnvironments [] d d where
  toSameMeaning := .refl d
  wellFormed := wf
  rooted := rooted
  environment_names := (List.append_nil _).symm
  environment_rows := by simp [Labels.tuples_nil some]
  feature_names := d.features.others_nil.symm
  feature_rows := by rw [Labels.others_nil, Labels.tuples_names]
  gradient_labels := by
    refine rel_labels (r := fun g g' => g' = g) ?_ ?_
    · cases d.gradients
      · exact .none
      · exact .some rfl
    · rintro _ g hg rfl
      refine ⟨?_, ?_⟩
      · rw [List.append_nil]
        exact (List.prefix_iff_eq_append.1 (wf.gradients g hg).names).symm
      · simp [Labels.tuples_nil some]
  computed := rfl

theorem beforeFeatures_nil (wf : d.WellFormed) (rooted : d.Rooted)
    (some : d.environments.rows ≠ []) : BeforeFeatures [] d d where
  toSameMeaning := .refl d
  wellFormed := wf
  rooted := rooted
  feature_names := rfl
  feature_rows := by simp [Labels.tuples_nil some]
  environment_names := d.environments.others_nil.symm
  environment_rows := by rw [Labels.others_nil, Labels.tuples_names]
  gradient_labels := by
    refine rel_labels (r := fun g g' => g' = g) ?_ ?_
    · cases d.gradients
      · exact .none
      · exact .some rfl
    · rintro _ g hg rfl
      have start := (wf.gradients g hg).names
      have same : g.labels.rows.map (narrowed d.environments []) = g.labels.rows := by
        refine (List.map_congr_left fun row hrow => ?_).trans (List.map_id _)
        rw [narrowed, Labels.others_nil, Labels.part_names _ (length_take start hrow),
          List.take_append_drop]
        rfl
      refine ⟨?_, ?_⟩
      · rw [Labels.others_nil]
        exact (List.prefix_iff_eq_append.1 start).symm
      · rw [same, firstSeen_of_nodup g.labels.nodup]
  computed := rfl

/-- Moving distinct variables of the features puts them behind the environments. -/
theorem ensures_densify_named (wf : d.WellFormed) (rooted : d.Rooted)
    (some : d.features.rows ≠ []) (nodup : wanted.Nodup) (known : wanted ⊆ d.features.names) :
    Ensures (densify wanted) d fun r d' => r = .ok () → BehindEnvironments wanted d d' := by
  obtain ⟨p, chosen, parts, moves, stays⟩ :=
    Partition.exists_chosen nodup known (List.disjoint_comm.1 wf.disjoint)
  refine ensures_mono (ensures_densify_chosen wanted d) ?_
  rintro r d' (⟨rfl, nothing⟩ | ⟨-, q, same, -, moved⟩) ok
  -- nothing is done only if there is nothing to move
  · have none : wanted = [] := by
      rw [← moves, Partition.movedOf, nothing ok p chosen]
      rfl
    subst none
    exact behindEnvironments_nil wf rooted some
  · rw [chosen] at same
    cases same
    exact moved.behindEnvironments wf rooted moves stays

/-- Distinct variables of the features can be moved if the gradient rows do not have them. -/
theorem ensures_densify_ok (wf : d.WellFormed) (nodup : wanted.Nodup)
    (known : wanted ⊆ d.features.names)
    (fresh : ∀ g, d.gradients = some g → g.labels.names.Disjoint wanted) :
    Ensures (densify wanted) d fun r _ => r = .ok () := by
  obtain ⟨p, chosen, -⟩ :=
    Partition.exists_chosen nodup known (List.disjoint_comm.1 wf.disjoint)
  refine ensures_mono (ensures_densify_answer wf.toShaped fun q chosen g hg name there moves => ?_) ?_
  · exact fresh g hg there ((Partition.chosen_eq_ok chosen).fresh name moves).1
  · intro r _ answer
    rwa [chosen] at answer

/-- Moving distinct variables of the environments puts them in front of the features. -/
theorem ensures_densifyToFeatures_named (wf : d.WellFormed) (rooted : d.Rooted)
    (some : d.environments.rows ≠ []) (nodup : wanted.Nodup)
    (known : wanted ⊆ d.environments.names) :
    Ensures (densifyToFeatures wanted) d fun r d' => r = .ok () ∧ BeforeFeatures wanted d d' := by
  obtain ⟨p, chosen, parts, moves, stays⟩ := Partition.exists_chosen nodup known wf.disjoint
  have answer : Ensures (densifyToFeatures wanted) d fun r _ =>
      r = (Partition.chosen wanted d.environments d.features).map fun _ => () :=
    ensures_densifyToFeatures_answer wf.toShaped rooted
  rw [chosen] at answer
  intro trace
  have ok := answer trace
  rcases ensures_densifyToFeatures_chosen wanted d trace with
    ⟨same, nothing⟩ | ⟨-, q, same, -, moved⟩
  · have none : wanted = [] := by
      rw [← moves, Partition.movedOf, nothing ok p chosen]
      rfl
    subst none
    exact ⟨ok, same.symm ▸ beforeFeatures_nil wf rooted some⟩
  · rw [chosen] at same
    cases same
    exact ⟨ok, moved.beforeFeatures wf moves stays⟩

end Descriptor
end Atomistic
