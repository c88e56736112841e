import Atomistic.Proofs.NamedVariables
import Atomistic.Proofs.RowsAndColumns

/-!
# Moving variables there and back

Variables that are moved from one axis to the other one and back again are on their old axis, but
not where they were: they come first among the features, or last among the environments. The axis
where they were in between is what it was before. On their own axis the tuples of labels that they
take are now combined with all tuples that the other variables take, each in the order in which they
are first seen. The columns or rows that were there are found among these combinations, and the new
ones are zero. If the features had been all combinations in this order, nothing has changed.
-/

namespace Atomistic

/-- A row with the labels of some variables in front of the others. -/
def Labels.inFront (t : Labels) (names : List String) (row : List Int) : List Int :=
  t.part names row ++ t.part (t.others names) row

/-- A row with the labels of some variables behind the others. -/
def Labels.atEnd (t : Labels) (names : List String) (row : List Int) : List Int :=
  t.part (t.others names) row ++ t.part names row

/-- All combinations of tuples, the second ones varying faster. -/
def combinations (firsts seconds : List (List Int)) : List (List Int) :=
  firsts.flatMap fun first => seconds.map fun second => first ++ second

theorem mem_combinations {firsts seconds : List (List Int)} {first second : List Int}
    (h : first ∈ firsts) (h' : second ∈ seconds) :
    first ++ second ∈ combinations firsts seconds :=
  List.mem_flatMap.2 ⟨first, h, List.mem_map.2 ⟨second, h', rfl⟩⟩

theorem combinations_ne_nil {firsts seconds : List (List Int)} (h : firsts ≠ [])
    (h' : seconds ≠ []) : combinations firsts seconds ≠ [] := by
  obtain ⟨first, hfirst⟩ := List.exists_mem_of_ne_nil _ h
  obtain ⟨second, hsecond⟩ := List.exists_mem_of_ne_nil _ h'
  exact List.ne_nil_of_mem (mem_combinations hfirst hsecond)

/-- The tuples of a table of combinations are those that were combined. -/
theorem Labels.tuples_of_combinations {t : Labels} {names more : List String}
    {firsts seconds : List (List Int)} (names_eq : t.names = names ++ more)
    (rows_eq : t.rows = combinations firsts seconds)
    (width : ∀ first ∈ firsts, first.length = names.length)
    (width' : ∀ second ∈ seconds, second.length = more.length)
    (nodup : firsts.Nodup) (nodup' : seconds.Nodup) (some : firsts ≠ []) (some' : seconds ≠ []) :
    t.tuples names = firsts ∧ t.tuples more = seconds := by
  have parts {first second : List Int} (h : first ∈ firsts) (h' : second ∈ seconds) :=
    part_of_append names_eq (width first h) (width' second h')
  have left : t.rows.map (t.part names)
      = firsts.flatMap fun first => seconds.map fun _ => first := by
    rw [rows_eq, combinations, List.map_flatMap]
    refine List.flatMap_congr fun first h => ?_
    rw [List.map_map]
    exact List.map_congr_left fun second h' => (parts h h').1
  have right : t.rows.map (t.part more) = firsts.flatMap fun _ => seconds := by
    rw [rows_eq, combinations, List.map_flatMap]
    refine List.flatMap_congr fun first h => ?_
    rw [List.map_map]
    exact (List.map_congr_left fun second h' => (parts h h').2).trans (List.map_id _)
  exact ⟨(congrArg firstSeen left).trans (firstSeen_flatMap_map_const some' nodup),
    (congrArg firstSeen right).trans (firstSeen_flatMap_const some nodup')⟩

namespace Descriptor

open Traced Atomistic.Dense

variable {α : Type} [Scalar α] {d d' d'' : Descriptor α} {wanted : List String}

/-! ### Values that are read in the same way -/

section Readings

variable {values values'' : Dense α}

/-- Where the environments are the same, values that are read in the same way are moved as
columns. -/
theorem columnsMoved_of_readings {rows : Labels} (wf : d.WellFormed) (wf'' : d''.WellFormed)
    (environments : d''.environments = d.environments)
    (known : d''.features.names ⊆ d.features.names)
    (start : d.environments.names <+: rows.names)
    (fits : values.Fits rows d.features) (fits'' : values''.Fits rows d''.features)
    (placed : ∀ f ∈ d.features.rows, d.features.part d''.features.names f ∈ d''.features.rows)
    (alike : ∀ (a : Assignment) (s : List Int), d.environments.size + s.length = rows.size →
      values''.entry rows d''.features (d.environments.names.map a ++ s)
          (d''.features.names.map a)
        = values.entry rows d.features (d.environments.names.map a ++ s)
          (d.features.names.map a)) :
    ColumnsMoved d.features d''.features (d.features.part d''.features.names) values values'' := by
  have suffix {r : List Int} (hr : r ∈ rows.rows) :
      d.environments.size + (r.drop d.environments.size).length = rows.size := by
    have := start.length_le
    rw [List.length_drop, rows.width r hr]
    exact Nat.add_sub_cancel' this
  refine columnsMoved fits fits'' placed (fun r hr f hf => ?_) fun r hr c hc other => ?_
  · obtain ⟨a, ha, rfl⟩ := wf.exists_reading (length_take start hr) (d.features.width f hf)
    have here := alike a _ (suffix hr)
    rwa [ha, List.take_append_drop, ← d.features.part_map known] at here
  · obtain ⟨a, ha, rfl⟩ := wf''.exists_reading
      (by rw [environments]; exact length_take start hr) (d''.features.width c hc)
    rw [environments] at ha
    have here := alike a _ (suffix hr)
    rw [ha, List.take_append_drop] at here
    refine here.trans (entry_of_column (Labels.position_eq_none.2 fun old => other ?_))
    exact List.mem_map.2 ⟨_, old, d.features.part_map known a⟩

/-- Where the features are the same, values that are read in the same way are moved as rows. -/
theorem rowsMoved_of_readings {old new : Labels} (wf : d.WellFormed) (wf'' : d''.WellFormed)
    (features : d''.features = d.features)
    (perm : d''.environments.names.Perm d.environments.names)
    (start : d.environments.names <+: old.names) (start'' : d''.environments.names <+: new.names)
    (size : new.size = old.size)
    (fits : values.Fits old d.features) (fits'' : values''.Fits new d.features)
    (placed : ∀ row ∈ old.rows, d.environments.part d''.environments.names
      (row.take d.environments.size) ++ row.drop d.environments.size ∈ new.rows)
    (alike : ∀ (a : Assignment) (s : List Int), d.environments.size + s.length = old.size →
      values''.entry new d.features (d''.environments.names.map a ++ s) (d.features.names.map a)
        = values.entry old d.features (d.environments.names.map a ++ s)
          (d.features.names.map a)) :
    RowsMoved old new (fun row => d.environments.part d''.environments.names
      (row.take d.environments.size) ++ row.drop d.environments.size) values values'' := by
  have suffix {row : List Int} {t : Labels} (h : row.length = t.size) (ht : t.size = old.size) :
      d.environments.size + (row.drop d.environments.size).length = old.size := by
    have := start.length_le
    rw [List.length_drop, h, ht]
    exact Nat.add_sub_cancel' this
  have size_eq : d''.environments.size = d.environments.size := perm.length_eq
  refine rowsMoved fits fits'' placed (fun row hrow f hf => ?_) fun row hrow other f hf => ?_
  · obtain ⟨a, ha, rfl⟩ := wf.exists_reading (length_take start hrow) (d.features.width f hf)
    have here := alike a _ (suffix (old.width row hrow) rfl)
    rw [ha, List.take_append_drop, ← d.environments.part_map perm.subset, ha] at here
    exact here
  · obtain ⟨a, ha, assigned⟩ := wf''.exists_reading (length_take start'' hrow)
      (by rw [features]; exact d.features.width f hf)
    rw [features] at assigned
    rw [size_eq] at ha
    subst assigned
    have here := alike a _ (suffix (new.width row hrow) size)
    rw [ha, List.take_append_drop] at here
    refine here.trans (entry_of_row (Labels.position_eq_none.2 fun there => other ?_))
    refine List.mem_map.2 ⟨_, there, ?_⟩
    have width : (d.environments.names.map a).length = d.environments.size := List.length_map _
    rw [List.take_left' width, List.drop_left' width, d.environments.part_map perm.subset, ha,
      List.take_append_drop]

end Readings

omit [Scalar α] in
theorem Shaped.fits (h : d.Shaped) : d.values.Fits d.environments d.features :=
  ⟨h.rows, h.columns⟩

omit [Scalar α] in
theorem Shaped.gradientFits {g : Gradients α} (h : d.Shaped) (hg : d.gradients = some g) :
    g.values.Fits g.labels d.features := ⟨(h.gradients g hg).rows, (h.gradients g hg).columns⟩

theorem SameMeaning.gradient_entries {g g'' : Gradients α} (same : SameMeaning d d'')
    (hg : d.gradients = some g) (hg'' : d''.gradients = some g'') (a : Assignment) (s : List Int) :
    g''.values.entry g''.labels d''.features (d''.environments.names.map a ++ s)
        (d''.features.names.map a)
      = g.values.entry g.labels d.features (d.environments.names.map a ++ s)
        (d.features.names.map a) := by
  have here := same.gradients a s
  rw [gradientAt, gradientAt, hg, hg''] at here
  exact Option.some.inj here

omit [Scalar α] in
/-- Gradients are related by their labels and by what follows from these. -/
theorem rel_gradients {q : Labels → Labels → Prop} {r : Gradients α → Gradients α → Prop}
    (labels : Option.Rel q (d.labels? .gradients) (d''.labels? .gradients))
    (each : ∀ g g'', d.gradients = some g → d''.gradients = some g'' → q g.labels g''.labels →
      r g g'') : Option.Rel r d.gradients d''.gradients := by
  simp only [labels?] at labels
  cases hg : d.gradients with
  | none =>
    cases hg'' : d''.gradients with
    | none => exact .none
    | some g'' =>
      rw [hg, hg''] at labels
      cases labels
  | some g =>
    cases hg'' : d''.gradients with
    | none =>
      rw [hg, hg''] at labels
      cases labels
    | some g'' =>
      rw [hg, hg''] at labels
      cases labels with
      | some related => exact .some (each g g'' hg hg'' related)

theorem rel_comp {β γ δ : Type} {r : β → γ → Prop} {q : γ → δ → Prop} {s : β → δ → Prop}
    {x : Option β} {y : Option γ} {z : Option δ} (h : Option.Rel r x y) (h' : Option.Rel q y z)
    (imp : ∀ b c e, x = some b → r b c → q c e → s b e) : Option.Rel s x z := by
  cases h with
  | none =>
    cases h'
    exact .none
  | some hbc =>
    cases h' with
    | some hce => exact .some (imp _ _ _ rfl hbc hce)

/-! ### To the environments and back -/

/-- The second descriptor is the first one with its features regrouped: the given variables come
first, and all combinations with the others are there. -/
structure FeaturesRegrouped (wanted : List String) (d d'' : Descriptor α) : Prop where
  environments : d''.environments = d.environments
  feature_names : d''.features.names = wanted ++ d.features.others wanted
  feature_rows : d''.features.rows
    = combinations (d.features.tuples wanted) (d.features.tuples (d.features.others wanted))
  values : ColumnsMoved d.features d''.features (d.features.inFront wanted) d.values d''.values
  gradients : Option.Rel (fun g g'' => g''.labels = g.labels ∧
    ColumnsMoved d.features d''.features (d.features.inFront wanted) g.values g''.values)
    d.gradients d''.gradients
  computed : d''.computed = d.computed

/-- Gradient rows that were widened are narrowed to what they were. -/
theorem Narrowed.of_widened {environments features environments' t t' t'' : Labels}
    (start : environments.names <+: t.names) (widened : Widened environments features wanted t t')
    (narrowed' : Narrowed environments' wanted t' t'')
    (names : environments'.names = environments.names ++ wanted)
    (some : features.rows ≠ []) : t'' = t := by
  have others : environments'.others wanted = environments.names :=
    Labels.others_of_append_left names
  have size : environments'.size = (environments.names ++ wanted).length := congrArg _ names
  have back {row block : List Int} (hrow : row ∈ t.rows) (hblock : block ∈ features.tuples wanted) :
      narrowed environments' wanted
        (row.take environments.size ++ block ++ row.drop environments.size) = row := by
    have width : (row.take environments.size).length = environments.names.length :=
      length_take start hrow
    have width' : block.length = wanted.length := by
      obtain ⟨f, -, rfl⟩ := Labels.mem_tuples.1 hblock
      exact features.length_part wanted f
    have both : (row.take environments.size ++ block).length = environments'.size := by
      rw [size, List.length_append, List.length_append, width, width']
    rw [narrowed, List.take_left' both, List.drop_left' both, others,
      (Labels.part_of_append names width width').1, List.take_append_drop]
  refine Labels.ext ?_ ?_
  · rw [narrowed'.names, widened.names, others, size, List.drop_left]
    exact List.prefix_iff_eq_append.1 start
  · have each : t'.rows.map (narrowed environments' wanted)
        = t.rows.flatMap fun row => (features.tuples wanted).map fun _ => row := by
      rw [widened.rows, List.map_flatMap]
      refine List.flatMap_congr fun row hrow => ?_
      rw [List.map_map]
      exact List.map_congr_left fun block hblock => back hrow hblock
    rw [narrowed'.rows, each, firstSeen_flatMap_map_const (Labels.tuples_ne_nil some wanted) t.nodup]

/-- What the labels are after variables were moved to the environments and back. -/
theorem BehindEnvironments.tables (there : BehindEnvironments wanted d d')
    (back : BeforeFeatures wanted d' d'') (environments_some : d.environments.rows ≠ [])
    (features_some : d.features.rows ≠ []) :
    d''.environments = d.environments ∧
      d''.features.names = wanted ++ d.features.others wanted ∧
      d''.features.rows = combinations (d.features.tuples wanted)
        (d.features.tuples (d.features.others wanted)) := by
  have others : d'.environments.others wanted = d.environments.names :=
    Labels.others_of_append_left there.environment_names
  obtain ⟨environment_rows, blocks⟩ := Labels.tuples_of_combinations there.environment_names
    there.environment_rows d.environments.width
    (fun block h => by
      obtain ⟨f, -, rfl⟩ := Labels.mem_tuples.1 h
      exact d.features.length_part wanted f)
    d.environments.nodup (d.features.nodup_tuples wanted) environments_some
    (Labels.tuples_ne_nil features_some wanted)
  refine ⟨Labels.ext (back.environment_names.trans others)
    (back.environment_rows.trans (others ▸ environment_rows)), ?_, ?_⟩
  · rw [back.feature_names, there.feature_names]
  · rw [back.feature_rows, blocks, there.feature_rows]
    rfl

theorem featuresRegrouped (wf : d.WellFormed) (wanted_known : wanted ⊆ d.features.names)
    (environments_some : d.environments.rows ≠ [])
    (features_some : d.features.rows ≠ []) (there : BehindEnvironments wanted d d')
    (back : BeforeFeatures wanted d' d'') : FeaturesRegrouped wanted d d'' := by
  obtain ⟨environments, names, rows⟩ := there.tables back environments_some features_some
  have place : d.features.part d''.features.names = d.features.inFront wanted := by
    funext row
    rw [names, Labels.part_append, Labels.inFront]
  have placed : ∀ f ∈ d.features.rows,
      d.features.part d''.features.names f ∈ d''.features.rows := by
    intro f hf
    rw [place, rows]
    exact mem_combinations (Labels.mem_tuples.2 ⟨f, hf, rfl⟩) (Labels.mem_tuples.2 ⟨f, hf, rfl⟩)
  have same := there.toSameMeaning.trans back.toSameMeaning
  have known : d''.features.names ⊆ d.features.names := by
    rw [names, List.append_subset]
    exact ⟨wanted_known, d.features.others_subset wanted⟩
  refine ⟨environments, names, rows, ?_, ?_, back.computed.trans there.computed⟩
  · have fits'' := back.wellFormed.fits
    rw [environments] at fits''
    refine place ▸ columnsMoved_of_readings wf back.wellFormed environments known
      (List.prefix_refl _) wf.fits fits'' placed fun a s size => ?_
    -- rows of values have no labels besides those of their environments
    obtain rfl : s = [] := List.eq_nil_of_length_eq_zero (by omega)
    have here := same.values a
    rw [valueAt, valueAt, environments] at here
    rwa [List.append_nil]
  · have labels : Option.Rel (fun t t'' => t'' = t) (d.labels? .gradients)
        (d''.labels? .gradients) := by
      refine rel_comp there.gradient_labels back.gradient_labels fun t t' t'' ht widened narrowed => ?_
      obtain ⟨g, hg, rfl⟩ := Option.map_eq_some_iff.1 ht
      exact narrowed.of_widened (wf.gradients g hg).names widened there.environment_names
        features_some
    refine rel_gradients labels fun g g'' hg hg'' same_labels => ⟨same_labels, ?_⟩
    have fits'' := back.wellFormed.gradientFits hg''
    rw [same_labels] at fits''
    refine place ▸ columnsMoved_of_readings wf back.wellFormed environments known
      (wf.gradients g hg).names (wf.gradientFits hg) fits'' placed fun a s _ => ?_
    have here := same.gradient_entries hg hg'' a s
    rwa [same_labels, environments] at here

/-- Features that were all combinations already, in the same order, are not changed. -/
theorem FeaturesRegrouped.eq_self (h : FeaturesRegrouped wanted d d'') (wf : d.WellFormed)
    (start : wanted <+: d.features.names)
    (full : d.features.rows
      = combinations (d.features.tuples wanted) (d.features.tuples (d.features.others wanted))) :
    d'' = d := by
  obtain ⟨rest, hrest⟩ := start
  have names : wanted ++ d.features.others wanted = d.features.names := by
    rw [Labels.others_of_append_right hrest.symm, hrest]
  have features : d''.features = d.features :=
    Labels.ext (h.feature_names.trans names) (h.feature_rows.trans full.symm)
  have still : ∀ f ∈ d.features.rows, d.features.inFront wanted f = f := by
    intro f hf
    rw [Labels.inFront, ← Labels.part_append, names]
    exact d.features.part_names (d.features.width f hf)
  have values : d''.values = d.values := (features ▸ h.values).eq_self wf.fits still
  have gradients : d''.gradients = d.gradients := by
    have each := map_eq_of_rel (f := id) (g := id) h.gradients fun g g'' hg related =>
      Gradients.ext related.1
        ((features ▸ related.2).eq_self (wf.gradientFits hg) still)
    simpa using each
  exact Descriptor.ext values h.environments features gradients h.computed

/-- Variables that are moved to the environments and back again come first among the features, in
all combinations with the others, and nothing else has changed. -/
theorem densify_and_back (wf : d.WellFormed) (rooted : d.Rooted)
    (environments_some : d.environments.rows ≠ []) (features_some : d.features.rows ≠ [])
    (nodup : wanted.Nodup) (known : wanted ⊆ d.features.names)
    (ok : ((densify wanted).outcome d).1 = .ok ()) :
    let back := (densifyToFeatures wanted).outcome ((densify wanted).outcome d).2.1
    back.1 = .ok () ∧ FeaturesRegrouped wanted d back.2.1 ∧
      (wanted <+: d.features.names → d.features.rows
        = combinations (d.features.tuples wanted) (d.features.tuples (d.features.others wanted)) →
        back.2.1 = d) := by
  intro back
  have there := (ensures_densify_named wf rooted features_some nodup known).outcome ok
  have some' : ((densify wanted).outcome d).2.1.environments.rows ≠ [] := by
    rw [there.environment_rows]
    exact combinations_ne_nil environments_some (Labels.tuples_ne_nil features_some wanted)
  have known' : wanted ⊆ ((densify wanted).outcome d).2.1.environments.names := by
    rw [there.environment_names]
    exact List.subset_append_right ..
  obtain ⟨ok', before⟩ :=
    (ensures_densifyToFeatures_named there.wellFormed there.rooted some' nodup known').outcome
  have regrouped := featuresRegrouped wf known environments_some features_some there before
  exact ⟨ok', regrouped, regrouped.eq_self wf⟩

theorem rooted_twoAtoms : twoAtoms.Rooted := by
  rintro g ⟨⟩
  unfold Gradients.Rooted Labels.Roots
  decide

/-- Two ranks and two species make four columns, two of them new. Both variables together have all
combinations already. -/
theorem densify_and_back_twoAtoms :
    let back (wanted : List String) :=
      ((densifyToFeatures wanted).outcome ((densify wanted).outcome twoAtoms).2.1).2.1
    let ranked := back ["rank"]
    ranked.features.names = ["rank", "species"] ∧
      ranked.features.rows = [[0, 1], [0, 6], [1, 1], [1, 6]] ∧
      ranked.values.columnOf ranked.features [1, 6] = some [2, 4] ∧
      ranked.values.columnOf ranked.features [0, 6] = some [0, 0] ∧
      back ["species", "rank"] = twoAtoms := by
  have there (wanted : List String) (nodup : wanted.Nodup)
      (known : wanted ⊆ ["species", "rank"]) :=
    densify_and_back wellFormed_twoAtoms rooted_twoAtoms (by decide) (by decide) nodup known <| by
      refine (ensures_densify_ok wellFormed_twoAtoms nodup known ?_).outcome
      rintro g ⟨⟩
      exact List.disjoint_of_subset_right known (by simp [List.Disjoint])
  obtain ⟨-, regrouped, -⟩ := there ["rank"] (by decide) (by decide)
  obtain ⟨-, -, same⟩ := there ["species", "rank"] (by decide) (by decide)
  have rows := regrouped.feature_rows
  simp only [Labels.tuples, firstSeen_eq_eraseDups] at rows same
  refine ⟨regrouped.feature_names, rows, ?_, ?_, same (by decide) (by decide)⟩
  · exact (regrouped.values.moved [6, 1] (by decide)).trans rfl
  · exact (regrouped.values.zero [0, 6] (by rw [rows]; decide) (by decide)).trans rfl

/-! ### To the features and back -/

/-- Gradients after variables of the environments were put behind the others: the rows are all
combinations of those that are left without these variables with the tuples that they take, and the
old rows are among them. -/
structure GradientsRegrouped (environments : Labels) (wanted : List String)
    (g g'' : Gradients α) : Prop where
  names : g''.labels.names = environments.others wanted ++ wanted
    ++ g.labels.names.drop environments.size
  rows : g''.labels.rows = (firstSeen (g.labels.rows.map (narrowed environments wanted))).flatMap
    fun row => (environments.tuples wanted).map fun block =>
      row.take (environments.others wanted).length ++ block
        ++ row.drop (environments.others wanted).length
  values : RowsMoved g.labels g''.labels
    (fun row => environments.atEnd wanted (row.take environments.size)
      ++ row.drop environments.size) g.values g''.values

/-- The second descriptor is the first one with its environments regrouped: the given variables come
last, and all combinations with the others are there. -/
structure EnvironmentsRegrouped (wanted : List String) (d d'' : Descriptor α) : Prop where
  features : d''.features = d.features
  environment_names : d''.environments.names = d.environments.others wanted ++ wanted
  environment_rows : d''.environments.rows
    = combinations (d.environments.tuples (d.environments.others wanted))
      (d.environments.tuples wanted)
  values : RowsMoved d.environments d''.environments (d.environments.atEnd wanted)
    d.values d''.values
  gradients : Option.Rel (GradientsRegrouped d.environments wanted) d.gradients d''.gradients
  computed : d''.computed = d.computed

/-- Gradient rows that were narrowed are all combinations after they are widened. -/
theorem Widened.of_narrowed {environments environments' features' t t' t'' : Labels}
    (narrowed' : Narrowed environments wanted t t')
    (widened : Widened environments' features' wanted t' t'')
    (names : environments'.names = environments.others wanted)
    (tuples : features'.tuples wanted = environments.tuples wanted) :
    t''.names = environments.others wanted ++ wanted ++ t.names.drop environments.size ∧
      t''.rows = (firstSeen (t.rows.map (narrowed environments wanted))).flatMap fun row =>
        (environments.tuples wanted).map fun block =>
          row.take (environments.others wanted).length ++ block
            ++ row.drop (environments.others wanted).length := by
  have size : environments'.size = (environments.others wanted).length := congrArg _ names
  constructor
  · rw [widened.names, narrowed'.names, names, size, List.drop_left]
  · rw [widened.rows, narrowed'.rows, tuples, size]

/-- The old gradient rows are among the combinations. -/
theorem atEnd_mem {environments : Labels} {rows : List (List Int)} {row : List Int}
    (hrow : row ∈ rows) (known : row.take environments.size ∈ environments.rows) :
    environments.atEnd wanted (row.take environments.size) ++ row.drop environments.size ∈
      (firstSeen (rows.map (narrowed environments wanted))).flatMap fun row =>
        (environments.tuples wanted).map fun block =>
          row.take (environments.others wanted).length ++ block
            ++ row.drop (environments.others wanted).length := by
  have width := environments.length_part (environments.others wanted) (row.take environments.size)
  refine List.mem_flatMap.2 ⟨narrowed environments wanted row, ?_, List.mem_map.2
    ⟨environments.part wanted (row.take environments.size), ?_, ?_⟩⟩
  · exact mem_firstSeen.2 (List.mem_map.2 ⟨row, hrow, rfl⟩)
  · exact Labels.mem_tuples.2 ⟨_, known, rfl⟩
  · rw [narrowed, List.take_left' width, List.drop_left' width, Labels.atEnd]

/-- What the labels are after variables were moved to the features and back. -/
theorem BeforeFeatures.tables (there : BeforeFeatures wanted d d')
    (back : BehindEnvironments wanted d' d'') (environments_some : d.environments.rows ≠ [])
    (features_some : d.features.rows ≠ []) :
    d''.features = d.features ∧
      d''.environments.names = d.environments.others wanted ++ wanted ∧
      d''.environments.rows = combinations (d.environments.tuples (d.environments.others wanted))
        (d.environments.tuples wanted) ∧
      Option.Rel (fun t t'' : Labels =>
        t''.names = d.environments.others wanted ++ wanted ++ t.names.drop d.environments.size ∧
        t''.rows = (firstSeen (t.rows.map (narrowed d.environments wanted))).flatMap fun row =>
          (d.environments.tuples wanted).map fun block =>
            row.take (d.environments.others wanted).length ++ block
              ++ row.drop (d.environments.others wanted).length)
        (d.labels? .gradients) (d''.labels? .gradients) := by
  have others : d'.features.others wanted = d.features.names :=
    Labels.others_of_append_right there.feature_names
  obtain ⟨blocks, feature_rows⟩ := Labels.tuples_of_combinations there.feature_names
    there.feature_rows
    (fun block h => by
      obtain ⟨e, -, rfl⟩ := Labels.mem_tuples.1 h
      exact d.environments.length_part wanted e)
    d.features.width (d.environments.nodup_tuples wanted) d.features.nodup
    (Labels.tuples_ne_nil environments_some wanted) features_some
  refine ⟨Labels.ext (back.feature_names.trans others)
    (back.feature_rows.trans (others ▸ feature_rows)), ?_, ?_, ?_⟩
  · rw [back.environment_names, there.environment_names]
  · rw [back.environment_rows, blocks, there.environment_rows]
    rfl
  · exact rel_comp there.gradient_labels back.gradient_labels fun t t' t'' _ narrowed widened =>
      Widened.of_narrowed narrowed widened there.environment_names blocks

theorem environmentsRegrouped (wf : d.WellFormed) (rooted : d.Rooted)
    (environments_some : d.environments.rows ≠ [])
    (features_some : d.features.rows ≠ []) (there : BeforeFeatures wanted d d')
    (back : BehindEnvironments wanted d' d'') : EnvironmentsRegrouped wanted d d'' := by
  obtain ⟨features, names, rows, labels⟩ := there.tables back environments_some features_some
  have place : d.environments.part d''.environments.names = d.environments.atEnd wanted := by
    funext row
    rw [names, Labels.part_append, Labels.atEnd]
  have same := there.toSameMeaning.trans back.toSameMeaning
  have perm : d''.environments.names.Perm d.environments.names := by
    have both := same.names
    rw [features] at both
    exact (List.perm_append_right_iff _).1 both
  refine ⟨features, names, rows, ?_, ?_, back.computed.trans there.computed⟩
  · have fits'' := back.wellFormed.fits
    rw [features] at fits''
    have still {e : List Int} (he : e ∈ d.environments.rows) :
        d.environments.part d''.environments.names (e.take d.environments.size)
          ++ e.drop d.environments.size = d.environments.atEnd wanted e := by
      have width : e.length = d.environments.size := d.environments.width e he
      rw [place, ← width, List.take_length, List.drop_length, List.append_nil]
    have moved := rowsMoved_of_readings wf back.wellFormed features perm (List.prefix_refl _)
      (List.prefix_refl _) perm.length_eq wf.fits fits'' ?_ ?_
    · exact moved.congr fun e he => (still he).symm
    · intro e he
      rw [still he, rows]
      exact mem_combinations (Labels.mem_tuples.2 ⟨e, he, rfl⟩) (Labels.mem_tuples.2 ⟨e, he, rfl⟩)
    · intro a s size
      obtain rfl : s = [] := List.eq_nil_of_length_eq_zero (by omega)
      have here := same.values a
      rw [valueAt, valueAt, features] at here
      rwa [List.append_nil, List.append_nil]
  · refine rel_gradients labels fun g g'' hg hg'' found => ⟨found.1, found.2, ?_⟩
    have fits'' := back.wellFormed.gradientFits hg''
    rw [features] at fits''
    have start := (wf.gradients g hg).names
    refine place ▸ rowsMoved_of_readings wf back.wellFormed features perm start
      (back.wellFormed.gradients g'' hg'').names ?_ (wf.gradientFits hg) fits'' ?_ ?_
    · have others_size := perm.length_eq
      have start_size := start.length_le
      rw [names] at others_size
      rw [Labels.size, found.1, List.length_append, others_size, List.length_drop, Labels.size,
        Nat.add_sub_cancel' start_size]
      rfl
    · intro row hrow
      rw [place, found.2]
      exact atEnd_mem hrow (rooted g hg row hrow)
    · intro a s _
      have here := same.gradient_entries hg hg'' a s
      rwa [features] at here

/-- What was moved in front of the features can be moved back, for nothing else has its variables. -/
theorem BeforeFeatures.fresh (h : BeforeFeatures wanted d d') (wf : d.WellFormed)
    (known : wanted ⊆ d.environments.names) :
    ∀ g', d'.gradients = some g' → g'.labels.names.Disjoint wanted := by
  intro g' hg' name there asked
  have labels : d'.labels? .gradients = some g'.labels := congrArg (Option.map _) hg'
  obtain ⟨t, ht, narrowed⟩ := exists_of_rel h.gradient_labels labels
  obtain ⟨g, hg, rfl⟩ := Option.map_eq_some_iff.1 ht
  rw [narrowed.names, List.mem_append] at there
  rcases there with stays | beyond
  · have other := (List.mem_filter.1 stays).2
    simp [asked] at other
  · have nodup := g.labels.names_valid.nodup
    rw [← List.prefix_iff_eq_append.1 (wf.gradients g hg).names] at nodup
    exact List.disjoint_of_nodup_append nodup (known asked) beyond

/-- Variables that are moved to the features and back again come last among the environments, in all
combinations with the others, and nothing else has changed. -/
theorem densifyToFeatures_and_back (wf : d.WellFormed) (rooted : d.Rooted)
    (environments_some : d.environments.rows ≠ []) (features_some : d.features.rows ≠ [])
    (nodup : wanted.Nodup) (known : wanted ⊆ d.environments.names) :
    let there := (densifyToFeatures wanted).outcome d
    let back := (densify wanted).outcome there.2.1
    there.1 = .ok () ∧ back.1 = .ok () ∧ EnvironmentsRegrouped wanted d back.2.1 := by
  intro there back
  obtain ⟨ok, before⟩ :=
    (ensures_densifyToFeatures_named wf rooted environments_some nodup known).outcome
  have some' : there.2.1.features.rows ≠ [] := by
    rw [before.feature_rows]
    exact combinations_ne_nil (Labels.tuples_ne_nil environments_some wanted) features_some
  have known' : wanted ⊆ there.2.1.features.names := by
    rw [before.feature_names]
    exact List.subset_append_left ..
  have ok' : back.1 = .ok () :=
    (ensures_densify_ok before.wellFormed nodup known' (before.fresh wf known)).outcome
  have behind := (ensures_densify_named before.wellFormed before.rooted some' nodup known').outcome
    ok'
  exact ⟨ok, ok', environmentsRegrouped wf rooted environments_some features_some before behind⟩

/-- Each atom gets the gradient row that only the other one had, with zeros. -/
theorem densifyToFeatures_and_back_twoAtoms :
    let back := ((densify ["center"]).outcome
      ((densifyToFeatures ["center"]).outcome twoAtoms).2.1).2.1
    back.environments.rows = [[0, 0], [0, 1]] ∧
      back.values.rowOf back.environments [0, 1] = some [3, 4] ∧
      ∃ g, back.gradients = some g ∧
        g.labels.rows = [[0, 0, 1, 0], [0, 1, 1, 0], [0, 0, 0, 2], [0, 1, 0, 2]] ∧
        g.values.rowOf g.labels [0, 0, 1, 0] = some [5, 6] ∧
        g.values.rowOf g.labels [0, 1, 1, 0] = some [0, 0] := by
  intro back
  obtain ⟨-, -, regrouped⟩ := densifyToFeatures_and_back wellFormed_twoAtoms rooted_twoAtoms
    (by decide) (by decide) (show ["center"].Nodup by decide) (by decide)
  have rows := regrouped.environment_rows
  simp only [Labels.tuples, firstSeen_eq_eraseDups] at rows
  refine ⟨rows, (regrouped.values.moved [0, 1] (by decide)).trans rfl, ?_⟩
  have gradients := regrouped.gradients
  generalize back.gradients = found at gradients
  cases gradients with
  | some related =>
    have gradient_rows := related.rows
    simp only [Labels.tuples, firstSeen_eq_eraseDups] at gradient_rows
    refine ⟨_, rfl, gradient_rows, ?_, ?_⟩
    · exact (related.values.moved [0, 0, 1, 0] (by decide)).trans rfl
    · exact (related.values.zero [0, 1, 1, 0] (by rw [gradient_rows]; decide) (by decide)).trans rfl

end Descriptor
end Atomistic
