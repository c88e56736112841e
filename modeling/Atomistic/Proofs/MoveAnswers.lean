import Atomistic.Proofs.NamedVariables

/-!
# What calls that move variables answer

A call is refused for its list of names, or for the gradients: gradient rows may have a variable
already that should go to the environments, and a gradient row may belong to an environment that is
not there when variables of the environments should go to the features. Nothing else can go wrong,
and a call that is refused leaves the descriptor as it was. A call that is not refused leaves all of
its names on the axis where they should be, so that asking for them again finds nothing to do.
-/

namespace Atomistic.Descriptor

open Traced

variable {α : Type} [Scalar α] {p : Partition} {d d' : Descriptor α} {move : Move}

/-! ### Both directions at once -/

namespace Move

/-- The variables that a call asks for. -/
def wanted : Move → List String
  | toEnvironments wanted => wanted
  | toFeatures wanted => wanted

/-- The same call for other variables. -/
def asking (names : List String) : Move → Move
  | toEnvironments _ => toEnvironments names
  | toFeatures _ => toFeatures names

@[simp] theorem wanted_asking (names : List String) (move : Move) :
    (move.asking names).wanted = names := by
  cases move <;> rfl

/-- The table that variables are taken from. -/
def source (d : Descriptor α) : Move → Labels
  | toEnvironments _ => d.features
  | toFeatures _ => d.environments

/-- The table that variables are put into. -/
def target (d : Descriptor α) : Move → Labels
  | toEnvironments _ => d.environments
  | toFeatures _ => d.features

/-- The partition of the variables that a call asks for. -/
def chosen (d : Descriptor α) (move : Move) : Except Error Partition :=
  Partition.chosen move.wanted (move.source d) (move.target d)

/-- The gradients after the variables of a partition were moved. -/
def gradients (p : Partition) (d : Descriptor α) : Move → Except Error (Option (Gradients α))
  | toEnvironments _ => d.gradients.mapM fun g => gradientsToEnvironments g
      (columnSplitting p d.features) d.environments.names (p.movedOf d.features.names)
  | toFeatures _ => d.gradients.mapM fun g => gradientsToFeatures g p d.environments
      (rowSplitting p d.environments).seconds

/-- The second descriptor is the first one with the variables of a partition moved. -/
def Moved (p : Partition) (d d' : Descriptor α) : Move → Prop
  | toEnvironments _ => MovedToEnvironments p d d'
  | toFeatures _ => MovedToFeatures p d d'

variable (move d)

theorem ensures_eq : Ensures move.apply d fun r _ =>
    r = (move.chosen d).bind fun p =>
      if p.moved.isEmpty then .ok () else (move.gradients p d).map fun _ => () := by
  cases move with
  | toEnvironments wanted => exact ensures_densify_eq wanted d
  | toFeatures wanted => exact ensures_densifyToFeatures_eq wanted d

theorem ensures_chosen : Ensures move.apply d fun r d' =>
    (d' = d ∧ (r = .ok () → ∀ p, move.chosen d = .ok p → p.moved = [])) ∨
      r = .ok () ∧ ∃ p, move.chosen d = .ok p ∧ p.moved ≠ [] ∧ move.Moved p d d' := by
  cases move with
  | toEnvironments wanted => exact ensures_densify_chosen wanted d
  | toFeatures wanted => exact ensures_densifyToFeatures_chosen wanted d

/-- A call that goes well moves the variables of its partition, if there are any. -/
theorem ensures_moved : Ensures move.apply d fun r d' => r = .ok () →
    ∃ p, move.chosen d = .ok p ∧ (p.moved = [] ∧ d' = d ∨ p.moved ≠ [] ∧ move.Moved p d d') := by
  intro trace ok
  have answer := ensures_eq d move trace
  rcases ensures_chosen d move trace with ⟨same, nothing⟩ | ⟨-, p, choice, some, moved⟩
  · obtain ⟨p, choice, -⟩ := except_bind_eq_ok.1 (answer.symm.trans ok)
    exact ⟨p, choice, .inl ⟨nothing ok p choice, same⟩⟩
  · exact ⟨p, choice, .inr ⟨some, moved⟩⟩

variable {move d}

omit [Scalar α] in
/-- The variables that move are those of the source that are asked for. -/
theorem moved_eq_nil_iff (h : move.chosen d = .ok p) :
    p.moved = [] ↔ (move.source d).asked move.wanted = [] := by
  obtain ⟨-, -, rfl⟩ := Partition.chosen_eq_ok_iff.1 h
  exact List.map_eq_nil_iff

end Move

/-! ### Why gradients do not follow -/

theorem checkUnique_eq_error {names : List String} {e : Error} (h : checkUnique names = .error e) :
    ∃ name, e = .parameter (.gradientVariableTwice name) ∧ 2 ≤ names.count name := by
  rw [checkUnique] at h
  split at h
  · next name again =>
    cases h
    exact ⟨name, rfl, Partition.two_le_count again⟩
  · cases h

theorem nodup_of_checkUnique {names : List String} {u : Unit} (h : checkUnique names = .ok u) :
    names.Nodup := by
  rw [checkUnique] at h
  split at h
  · cases h
  · next once => exact (Partition.repeated?_eq_none once).1

/-- Gradient rows can only have a variable twice if it moves to them and was behind the variables of
the environments. -/
theorem gradientsToEnvironments_eq_error {g : Gradients α} {environments features : Labels}
    {e : Error}
    (names : environments.names <+: g.labels.names) (parts : p.Parts features.size)
    (fresh : environments.names.Disjoint (p.movedOf features.names))
    (h : gradientsToEnvironments g (columnSplitting p features) environments.names
      (p.movedOf features.names) = .error e) :
    ∃ name ∈ p.movedOf features.names, name ∈ g.labels.names.drop environments.size ∧
      e = .parameter (.gradientVariableTwice name) := by
  obtain ⟨suffix, hsuffix⟩ := names
  have drop : g.labels.names.drop environments.names.length = suffix := by
    rw [← hsuffix, List.drop_left]
  have distinct : (environments.names ++ suffix).Nodup := hsuffix ▸ g.labels.names_valid.nodup
  rcases except_bind_eq_error.1 h with twice | ⟨_, unique, -⟩
  · obtain ⟨name, rfl, counted⟩ := checkUnique_eq_error twice
    rw [drop, List.count_append, List.count_append] at counted
    have once := List.nodup_iff_count_le_one.1 distinct name
    have once' := List.nodup_iff_count_le_one.1 (Partition.namesValid_movedOf parts).nodup name
    rw [List.count_append] at once
    have moves : name ∈ p.movedOf features.names := List.count_pos_iff.1 (by omega)
    have new : environments.names.count name = 0 :=
      List.count_eq_zero.2 fun there => fresh there moves
    refine ⟨name, moves, ?_, rfl⟩
    rw [Labels.size, drop]
    exact List.count_pos_iff.1 (by omega)
  · have apart : g.labels.names.Disjoint (p.movedOf features.names) := by
      have once := nodup_of_checkUnique unique
      rw [drop, List.nodup_append'] at once
      intro name there moves
      rcases List.mem_append.1 (hsuffix ▸ there) with there | there
      · exact fresh there moves
      · exact once.2.2 (List.mem_append_right _ moves) there
    obtain ⟨g', hg'⟩ := exists_gradientsToEnvironments ⟨suffix, hsuffix⟩ parts apart
    rw [h] at hg'
    cases hg'

/-- Gradient rows do not follow their environments only where there is no environment. -/
theorem gradientsToFeatures_eq_error {g : Gradients α} {environments : Labels} {e : Error}
    (names : environments.names <+: g.labels.names) (parts : p.Parts environments.size)
    (h : gradientsToFeatures g p environments (rowSplitting p environments).seconds = .error e) :
    ∃ row ∈ g.labels.rows, row.take environments.size ∉ environments.rows ∧
      e = .internal (.environmentMissing (row.take environments.size)) := by
  by_cases rooted : g.Rooted environments
  · obtain ⟨g', hg'⟩ := exists_gradientsToFeatures names parts rooted
    rw [h] at hg'
    cases hg'
  · rw [gradientsToFeatures_eq] at h
    rcases except_bind_eq_error.1 h with missing | ⟨rows, known, -⟩
    · obtain ⟨row, hrow, missing⟩ := except_mapM_eq_error missing
      rw [knownParts] at missing
      split at missing
      · cases missing
      · next gone =>
        cases missing
        exact ⟨row, hrow, gone, rfl⟩
    · refine absurd (fun row hrow => ?_) rooted
      obtain ⟨part, hpart⟩ := exists_mapM_eq_ok.1 ⟨rows, known⟩ row hrow
      exact (knownParts_eq_ok.1 hpart).1

/-! ### Refused calls -/

/-- Why a call is refused, and the error that says so. -/
inductive Move.Refused (d : Descriptor α) : Move → Error → Prop where
  | names {move : Move} {e : Error}
      (refused : Partition.Refused move.wanted (move.source d) (move.target d) e) :
      Refused d move e
  | gradientVariable {wanted : List String} {g : Gradients α} {name : String}
      (having : d.gradients = some g) (moves : name ∈ d.features.asked wanted)
      (there : name ∈ g.labels.names.drop d.environments.size) :
      Refused d (toEnvironments wanted) (.parameter (.gradientVariableTwice name))
  | environment {wanted : List String} {g : Gradients α} {row : List Int}
      (having : d.gradients = some g) (moves : d.environments.asked wanted ≠ [])
      (gradient : row ∈ g.labels.rows)
      (missing : row.take d.environments.size ∉ d.environments.rows) :
      Refused d (toFeatures wanted)
        (.internal (.environmentMissing (row.take d.environments.size)))

namespace Move

theorem refused_of_gradients (shaped : d.Shaped) {e : Error} (choice : move.chosen d = .ok p)
    (some : p.moved ≠ []) (h : move.gradients p d = .error e) : move.Refused d e := by
  have known := Partition.chosen_eq_ok choice
  obtain ⟨-, -, hp⟩ := Partition.chosen_eq_ok_iff.1 choice
  cases move with
  | toEnvironments wanted =>
    obtain ⟨g, hg, h⟩ := option_mapM_eq_error h
    obtain ⟨name, moves, there, rfl⟩ := gradientsToEnvironments_eq_error
      (shaped.gradients g hg).names known.parts
      (fun name there moves => (known.fresh name moves).2 there) h
    rw [hp] at moves
    exact .gradientVariable hg (Partition.movedOf_ofAsked wanted d.features ▸ moves) there
  | toFeatures wanted =>
    obtain ⟨g, hg, h⟩ := option_mapM_eq_error h
    obtain ⟨row, hrow, missing, rfl⟩ :=
      gradientsToFeatures_eq_error (shaped.gradients g hg).names known.parts h
    exact .environment hg (fun none => some ((moved_eq_nil_iff choice).2 none)) hrow missing

/-- If the gradients follow, the variables that move are new to them. -/
theorem fresh_of_gradients {wanted : List String} {gradients : Option (Gradients α)}
    (h : (toEnvironments wanted).gradients p d = .ok gradients) {g : Gradients α}
    (having : d.gradients = some g) {name : String} (moves : name ∈ p.movedOf d.features.names) :
    name ∉ g.labels.names.drop d.environments.size := by
  have follow := option_mapM_eq_ok h
  rw [having] at follow
  cases follow with
  | @some _ g' split =>
    have distinct := g'.labels.names_valid.nodup
    rw [(gradientsToEnvironments_eq_ok split).names, List.nodup_append'] at distinct
    exact distinct.2.2 (List.mem_append_right _ moves)

/-- If the gradients follow, they belong to environments. -/
theorem known_of_gradients {wanted : List String} {gradients : Option (Gradients α)}
    (h : (toFeatures wanted).gradients p d = .ok gradients) {g : Gradients α}
    (having : d.gradients = some g) {row : List Int} (hrow : row ∈ g.labels.rows) :
    row.take d.environments.size ∈ d.environments.rows := by
  have follow := option_mapM_eq_ok h
  rw [having] at follow
  cases follow with
  | some merged => exact (gradientsToFeatures_eq_ok merged).known row hrow

/-- A call fails if the gradients do not follow the variables that it moves. -/
theorem ensures_error_of_stuck (moves : (move.source d).asked move.wanted ≠ [])
    (stuck : ∀ p, move.chosen d = .ok p → ∀ gradients, move.gradients p d ≠ .ok gradients) :
    Ensures move.apply d fun r _ => ∃ e, r = .error e := by
  refine ensures_mono (ensures_eq d move) ?_
  rintro r d' rfl
  cases choice : move.chosen d with
  | error e => exact ⟨e, rfl⟩
  | ok p =>
    have some : p.moved ≠ [] := mt (moved_eq_nil_iff choice).1 moves
    cases follow : move.gradients p d with
    | error e => exact ⟨e, by simp [Except.bind, some, follow, Except.map]⟩
    | ok gradients => exact absurd follow (stuck p choice gradients)

/-- A call fails when there is a reason for it. -/
theorem ensures_error_of_refused {e : Error} (refused : move.Refused d e) :
    Ensures move.apply d fun r _ => ∃ e, r = .error e := by
  cases refused with
  | names refused =>
    obtain ⟨e, h⟩ := Partition.exists_error_iff_refused.2 ⟨_, refused⟩
    refine ensures_mono (ensures_eq d move) ?_
    rintro r d' rfl
    exact ⟨e, by rw [chosen, h]; rfl⟩
  | gradientVariable having moves there =>
    refine ensures_error_of_stuck (List.ne_nil_of_mem moves) fun p choice gradients follow => ?_
    obtain ⟨-, -, rfl⟩ := Partition.chosen_eq_ok_iff.1 choice
    exact fresh_of_gradients follow having ((Partition.movedOf_ofAsked ..).symm ▸ moves) there
  | environment having moves gradient missing =>
    refine ensures_error_of_stuck moves fun p choice gradients follow => ?_
    exact missing (known_of_gradients follow having gradient)

/-- A call that fails says why, and leaves the descriptor as it was. -/
theorem ensures_refused (shaped : d.Shaped) (move : Move) :
    Ensures move.apply d fun r d' => ∀ e, r = .error e → d' = d ∧ move.Refused d e := by
  intro trace e failed
  have answer := ensures_eq d move trace
  rcases ensures_chosen d move trace with ⟨same, -⟩ | ⟨ok, -⟩
  · refine ⟨same, ?_⟩
    rcases except_bind_eq_error.1 (answer.symm.trans failed) with refused | ⟨p, choice, stuck⟩
    · exact .names (Partition.refused_of_chosen refused)
    · split at stuck
      · cases stuck
      · next some =>
        have some : p.moved ≠ [] := mt List.isEmpty_iff.2 some
        cases follow : move.gradients p d with
        | error e' =>
          rw [follow] at stuck
          cases stuck
          exact refused_of_gradients shaped choice some follow
        | ok gradients =>
          rw [follow] at stuck
          cases stuck
  · exact nomatch failed.symm.trans ok

/-- A call goes well when there is no reason to refuse it. -/
theorem ensures_ok (shaped : d.Shaped) (move : Move) (none : ∀ e, ¬move.Refused d e) :
    Ensures move.apply d fun r _ => r = .ok () := by
  refine ensures_mono (ensures_refused shaped move) fun r d' why => ?_
  cases r with
  | ok => rfl
  | error e => exact absurd (why e rfl).2 (none e)

omit [Scalar α] in
/-- No reason is a broken assumption. -/
theorem Refused.ne_panic {e : Error} (refused : move.Refused d e) (cause : Panic) :
    e ≠ .panic cause := by
  rcases refused with ⟨_ | _ | _⟩ | _ | _ <;> nofun

/-- A call fails exactly when there is a reason for it, and with an error that says one. It breaks
no assumption, and the descriptor is as it was. -/
theorem refusals (shaped : d.Shaped) (move : Move) :
    let answer := move.apply.outcome d
    ((∃ e, answer.1 = .error e) ↔ ∃ e, move.Refused d e) ∧
      ∀ e, answer.1 = .error e →
        answer.2.1 = d ∧ move.Refused d e ∧ ∀ cause, e ≠ .panic cause := by
  intro answer
  have why := (ensures_refused shaped move).outcome
  refine ⟨⟨?_, ?_⟩, fun e failed => ?_⟩
  · rintro ⟨e, failed⟩
    exact ⟨e, (why e failed).2⟩
  · rintro ⟨e, refused⟩
    exact (ensures_error_of_refused refused).outcome
  · obtain ⟨same, refused⟩ := why e failed
    exact ⟨same, refused, refused.ne_panic⟩

end Move

/-- The second of the two atoms, with the gradients of both of them. -/
def strayGradients : Descriptor Float :=
  { twoAtoms with
    values := ⟨1, 2, #[3, 4], rfl⟩
    environments := { twoAtoms.environments with
      rows := [[0, 1]]
      width := by decide
      nodup := by decide }
    features := { twoAtoms.features with
      names := ["species", "neighbor"]
      names_valid := ⟨by decide, by decide⟩ } }

theorem shaped_strayGradients : strayGradients.Shaped where
  rows := rfl
  columns := rfl
  gradients := by
    rintro g ⟨⟩
    exact ⟨rfl, rfl, by decide⟩

/-- Gradient rows have the neighbor already, and the center can not move as it is not known for all
of them; asking for what is there already is fine. -/
theorem refusals_strayGradients :
    (∀ move ∈ [Move.toEnvironments ["neighbor"], .toFeatures ["center"]],
      let answer := move.apply.outcome strayGradients
      (∃ e, answer.1 = .error e) ∧ answer.2.1 = strayGradients) ∧
      ∀ e, ((densifyToFeatures ["neighbor"]).outcome strayGradients).1 ≠ .error e := by
  refine ⟨fun move hmove => ?_, fun e failed => ?_⟩
  · obtain ⟨iff, why⟩ := Move.refusals shaped_strayGradients move
    have reason : ∃ e, move.Refused strayGradients e := by
      simp only [List.mem_cons, List.not_mem_nil, or_false] at hmove
      rcases hmove with rfl | rfl
      · exact ⟨.parameter (.gradientVariableTwice "neighbor"),
          .gradientVariable rfl (by decide) (by decide)⟩
      · have stray : ([0, 0, 1, 0] : List Int) ∈ [[0, 0, 1, 0], [0, 1, 0, 2]] := by decide
        exact ⟨_, .environment rfl (by decide) stray (by decide)⟩
    obtain ⟨e, failed⟩ := iff.2 reason
    exact ⟨⟨e, failed⟩, (why e failed).1⟩
  · obtain ⟨-, refused, -⟩ :=
      (Move.refusals shaped_strayGradients (.toFeatures ["neighbor"])).2 e failed
    cases refused with
    | names refused => exact Partition.not_refused (by decide) (by decide) refused
    | environment having moves =>
      have none : strayGradients.environments.asked ["neighbor"] = [] := by decide
      exact moves none

namespace Move

/-! ### Calls that are made again -/

/-- All variables that a call asks for are where it puts them. -/
def Arrived (d : Descriptor α) (move : Move) : Prop :=
  ∀ name ∈ move.wanted, name ∈ (move.target d).names ∧ name ∉ (move.source d).names

theorem mem_target (h : move.Moved p d d') {name : String} :
    name ∈ (move.target d').names ↔
      name ∈ (move.target d).names ∨ name ∈ p.movedOf (move.source d).names := by
  cases move with
  | toEnvironments wanted =>
    rw [target, MovedToEnvironments.environment_names h, List.mem_append]
    rfl
  | toFeatures wanted =>
    rw [target, MovedToFeatures.feature_names h, List.mem_append, or_comm]
    rfl

theorem source_names (h : move.Moved p d d') :
    (move.source d').names = p.keptOf (move.source d).names := by
  cases move with
  | toEnvironments wanted => exact MovedToEnvironments.feature_names h
  | toFeatures wanted => exact MovedToFeatures.environment_names h

/-- A call that goes well leaves all of its variables where they should be. -/
theorem ensures_arrived (d : Descriptor α) (move : Move) :
    Ensures move.apply d fun r d' => r = .ok () → move.wanted.Nodup ∧ move.Arrived d' := by
  refine ensures_mono (ensures_moved d move) fun r d' done ok => ?_
  obtain ⟨p, choice, done⟩ := done ok
  obtain ⟨nodup, single, hp⟩ := Partition.chosen_eq_ok_iff.1 choice
  refine ⟨nodup, fun name hname => ?_⟩
  have there : name ∉ (move.source d).names → name ∈ (move.target d).names := fun missing =>
    of_not_not fun elsewhere => missing ((single name hname).2 elsewhere)
  rcases done with ⟨none, rfl⟩ | ⟨-, moved⟩
  -- nothing had to move, so that all of them were there already
  · have gone : name ∉ (move.source d').names := fun here =>
      List.ne_nil_of_mem (Labels.mem_asked.2 ⟨hname, here⟩) ((moved_eq_nil_iff choice).1 none)
    exact ⟨there gone, gone⟩
  · rw [mem_target moved, source_names moved, hp, Partition.movedOf_ofAsked,
      Partition.keptOf_ofAsked]
    refine ⟨?_, by simp [Labels.others, hname]⟩
    by_cases here : name ∈ (move.source d).names
    · exact .inr (Labels.mem_asked.2 ⟨hname, here⟩)
    · exact .inl (there here)

/-- A call for variables that are where they should be has nothing to do. -/
theorem ensures_unchanged (nodup : move.wanted.Nodup) (arrived : move.Arrived d) :
    Ensures move.apply d fun r d' => r = .ok () ∧ d' = d := by
  have choice : move.chosen d = .ok (.ofAsked move.wanted (move.source d)) := by
    refine Partition.chosen_eq_ok_iff.2 ⟨nodup, fun name hname => ?_, rfl⟩
    obtain ⟨there, gone⟩ := arrived name hname
    exact iff_of_false gone (not_not_intro there)
  have nothing : (Partition.ofAsked move.wanted (move.source d)).moved = [] := by
    refine (moved_eq_nil_iff choice).2 (List.filter_eq_nil_iff.2 fun name hname => ?_)
    simpa using (arrived name hname).2
  intro trace
  have ok := ensures_eq d move trace
  rw [choice] at ok
  simp only [Except.bind, nothing, List.isEmpty_nil, if_true] at ok
  obtain ⟨p, again, ⟨-, same⟩ | ⟨some, -⟩⟩ := ensures_moved d move trace ok
  · exact ⟨ok, same⟩
  · rw [choice] at again
    cases again
    exact absurd nothing some

omit [Scalar α] in
theorem Arrived.asking {names : List String} (arrived : move.Arrived d)
    (drawn : names ⊆ move.wanted) : (move.asking names).Arrived d := by
  cases move with
  | toEnvironments wanted => exact fun name hname => arrived name (drawn hname)
  | toFeatures wanted => exact fun name hname => arrived name (drawn hname)

/-- After a call that went well, the same call and those for some of its variables go well and
change nothing. -/
theorem apply_again (d : Descriptor α) (move : Move) (ok : (move.apply.outcome d).1 = .ok ())
    (names : List String) (drawn : names = move.wanted ∨ names.Nodup ∧ names ⊆ move.wanted) :
    let d' := (move.apply.outcome d).2.1
    let again := (move.asking names).apply.outcome d'
    again.1 = .ok () ∧ again.2.1 = d' := by
  intro d' again
  obtain ⟨nodup, arrived⟩ := (ensures_arrived d move).outcome ok
  obtain ⟨distinct, subset⟩ : names.Nodup ∧ names ⊆ move.wanted := by
    rcases drawn with rfl | drawn
    · exact ⟨nodup, List.Subset.refl _⟩
    · exact drawn
  refine (ensures_unchanged ?_ (arrived.asking subset)).outcome
  rwa [wanted_asking]

end Move

/-- A variable of the environments can be asked for together with one that moves to them. -/
theorem densify_twoAtoms : ((densify ["structure", "rank"]).outcome twoAtoms).1 = .ok () := by
  refine (Move.ensures_ok wellFormed_twoAtoms.toShaped (.toEnvironments _) ?_).outcome
  intro e refused
  cases refused with
  | names refused => exact Partition.not_refused (by decide) (by decide) refused
  | @gradientVariable _ _ name having moves there =>
    cases having
    have new : ∀ name ∈ twoAtoms.features.asked ["structure", "rank"],
        name ∉ ["neighbor", "spatial"] := by decide
    exact new name moves there

/-- Making this call again, or asking for its variables the other way around, changes nothing. -/
theorem apply_again_twoAtoms :
    let d := ((densify ["structure", "rank"]).outcome twoAtoms).2.1
    let again := (densify ["rank", "structure"]).outcome d
    again.1 = .ok () ∧ again.2.1 = d :=
  Move.apply_again twoAtoms (.toEnvironments ["structure", "rank"]) densify_twoAtoms
    ["rank", "structure"] (.inr ⟨by decide, by decide⟩)

end Atomistic.Descriptor
