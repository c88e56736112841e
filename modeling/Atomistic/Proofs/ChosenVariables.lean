import Atomistic.Proofs.LabelTables
import Atomistic.Proofs.Variables
import Mathlib.Data.List.ReduceOption

/-!
# Which variables a call moves

A caller names the variables that should be on the other axis. Some of them are there already and
are left alone, the others move. A list that names a variable twice is refused, and so is a name
that is a variable of neither axis; what else is found out about a name is of no concern to callers,
as long as no variable is on both axes.
-/

namespace Atomistic.Partition

open Traced

variable {wanted : List String} {source target : Labels} {p : Partition} {e : Error}

/-- The partition of the variables of `source` that is asked for, as a plain answer. -/
def chosen (wanted : List String) (source target : Labels) : Except Error Partition :=
  match repeated? [] wanted with
  | some name => .error (.parameter (.variableRequestedTwice name))
  | none => do
    let moved := (← wanted.mapM (locate source target)).reduceOption
    return ⟨moved, (List.range source.size).filter fun i => !moved.contains i⟩

theorem ensures_locateAll : ∀ wanted : List String, Ensures (locateAll source target wanted) ()
    fun r _ => r = (wanted.mapM (locate source target)).map List.reduceOption
  | [] => ensures_pure rfl
  | name :: wanted => by
    have rest := ensures_locateAll wanted
    rw [List.mapM_cons]
    refine ensures_ofExcept_bind (fun located hlocated => ?_) fun e he => ?_
    · rw [hlocated]
      cases located with
      | none =>
        refine ensures_log_bind (ensures_mono rest ?_)
        rintro r _ rfl
        cases wanted.mapM (locate source target) <;> rfl
      | some i =>
        refine ensures_bind (ensures_mono rest ?_)
        rintro r _ rfl
        cases wanted.mapM (locate source target) with
        | error e => rfl
        | ok found => exact ensures_pure rfl
    · rw [he]
      rfl

/-- The messages on the way make no difference. -/
theorem ensures_ofNames (wanted : List String) (source target : Labels) :
    Ensures (ofNames wanted source target) () fun r _ => r = chosen wanted source target := by
  rw [ofNames, chosen]
  cases repeated? [] wanted with
  | some name => exact ensures_throw rfl
  | none =>
    refine ensures_bind (ensures_mono (ensures_locateAll wanted) ?_)
    rintro r _ rfl
    cases wanted.mapM (locate source target) with
    | error e => rfl
    | ok found => exact ensures_pure rfl

/-! ### When names are refused -/

theorem repeated?_eq_some {name : String} : ∀ {names before : List String},
    repeated? before names = some name → name ∈ before ∧ name ∈ names ∨ 2 ≤ names.count name
  | [], _, h => by cases h
  | first :: names, before, h => by
    rw [repeated?] at h
    split at h
    · next again =>
      cases h
      exact .inl ⟨by simpa using again, List.mem_cons_self⟩
    · rcases repeated?_eq_some h with ⟨earlier, later⟩ | twice
      · rcases List.mem_cons.1 earlier with rfl | earlier
        · refine .inr ?_
          have once := List.count_pos_iff.2 later
          rw [List.count_cons_self]
          omega
        · exact .inl ⟨earlier, List.mem_cons_of_mem _ later⟩
      · exact .inr (Nat.le_trans twice List.count_le_count_cons)

theorem two_le_count {name : String} {names : List String}
    (h : repeated? [] names = some name) : 2 ≤ names.count name :=
  (repeated?_eq_some h).resolve_left fun earlier => List.not_mem_nil earlier.1

theorem repeated?_of_nodup {names : List String} (h : names.Nodup) : repeated? [] names = none := by
  cases again : repeated? [] names with
  | none => rfl
  | some name =>
    have twice := two_le_count again
    have once := List.nodup_iff_count_le_one.1 h name
    omega

/-- A name is located when it is a variable of one of the two axes. -/
theorem locate_eq_ok {name : String} {located : Option Nat} :
    locate source target name = .ok located ↔
      source.names.idxOf? name = located ∧ (located.isSome ↔ name ∉ target.names) := by
  unfold locate
  by_cases there : name ∈ target.names <;> cases source.names.idxOf? name <;>
    cases located <;> simp [there]

/-- Why names are refused: one is asked for twice, or is a variable of both axes, or of neither. -/
inductive Refused (wanted : List String) (source target : Labels) : Error → Prop where
  | twice {name : String} (again : 2 ≤ wanted.count name) :
      Refused wanted source target (.parameter (.variableRequestedTwice name))
  | both {name : String} (asked : name ∈ wanted) (here : name ∈ source.names)
      (there : name ∈ target.names) :
      Refused wanted source target (.parameter (.variableOnBothAxes name))
  | neither {name : String} (asked : name ∈ wanted) (here : name ∉ source.names)
      (there : name ∉ target.names) :
      Refused wanted source target (.parameter (.variableUnknown name))

/-- There is no reason if the names are distinct, and each is a variable of exactly one axis. -/
theorem not_refused (nodup : wanted.Nodup)
    (single : ∀ name ∈ wanted, (name ∈ source.names ↔ name ∉ target.names)) :
    ¬Refused wanted source target e := by
  intro refused
  cases refused with
  | @twice name again =>
    have once := List.nodup_iff_count_le_one.1 nodup name
    omega
  | both asked here there => exact (single _ asked).1 here there
  | neither asked here there => exact here ((single _ asked).2 there)

theorem refused_of_locate {name : String} (asked : name ∈ wanted)
    (h : locate source target name = .error e) : Refused wanted source target e := by
  unfold locate at h
  split at h
  · next i here there =>
    cases h
    exact .both asked (List.mem_of_getElem? (getElem?_of_idxOf? here).2) (by simpa using there)
  · cases h
  · cases h
  · next missing elsewhere =>
    cases h
    exact .neither asked (List.idxOf?_eq_none_iff.1 missing) (by simpa using elsewhere)

/-- The error that a choice ends with is one of these. -/
theorem refused_of_chosen (h : chosen wanted source target = .error e) :
    Refused wanted source target e := by
  rw [chosen] at h
  cases again : repeated? [] wanted with
  | some name =>
    rw [again] at h
    cases h
    exact .twice (two_le_count again)
  | none =>
    rw [again] at h
    rcases except_bind_eq_error.1 h with failed | ⟨located, -, h⟩
    · obtain ⟨name, hname, failed⟩ := except_mapM_eq_error failed
      exact refused_of_locate hname failed
    · cases h

/-! ### What is chosen -/

/-- The partition of the source parts all of its variables, and what moves is new to the target. -/
structure Chosen (wanted : List String) (source target : Labels) (p : Partition) : Prop where
  nodup : wanted.Nodup
  known : ∀ name ∈ wanted, name ∈ source.names ∨ name ∈ target.names
  parts : p.Parts source.size
  fresh : ∀ name ∈ p.movedOf source.names, name ∈ wanted ∧ name ∉ target.names

theorem chosen_eq_ok (h : chosen wanted source target = .ok p) :
    Chosen wanted source target p := by
  have parts : p.Parts source.size := by
    refine (answers_ofNames wanted source target ()).outcome p ?_
    exact ((ensures_ofNames wanted source target).outcome).trans h
  rw [chosen] at h
  cases again : repeated? [] wanted with
  | some name =>
    rw [again] at h
    cases h
  | none =>
    rw [again] at h
    obtain ⟨located, hlocated, h⟩ := except_bind_eq_ok.1 h
    cases h
    refine ⟨(repeated?_eq_none again).1, fun name hname => ?_, parts, fun name hname => ?_⟩
    · obtain ⟨found, hfound⟩ := exists_mapM_eq_ok.1 ⟨located, hlocated⟩ name hname
      obtain ⟨here, elsewhere⟩ := locate_eq_ok.1 hfound
      cases found with
      | some i => exact .inl (List.mem_of_getElem? (getElem?_of_idxOf? here).2)
      | none => exact .inr (by simpa using elsewhere)
    · obtain ⟨i, hi, there⟩ := List.mem_filterMap.1 hname
      obtain ⟨other, hother, found⟩ := (mem_of_mapM_eq_ok hlocated).1 (List.reduceOption_mem_iff.1 hi)
      obtain ⟨here, elsewhere⟩ := locate_eq_ok.1 found
      obtain rfl := Option.some.inj (there.symm.trans (getElem?_of_idxOf? here).2)
      exact ⟨hother, elsewhere.1 rfl⟩

/-- What a caller can do wrong: ask for a variable twice, or for one that no axis has. -/
inductive Mistake (wanted known : List String) : Error → Prop where
  | twice {name : String} (again : 2 ≤ wanted.count name) :
      Mistake wanted known (.parameter (.variableRequestedTwice name))
  | unknown {name : String} (asked : name ∈ wanted) (missing : name ∉ known) :
      Mistake wanted known (.parameter (.variableUnknown name))

variable {known : List String}

/-- Where no variable is on both axes, names are refused for these mistakes only. -/
theorem mistake_of_chosen (apart : source.names.Disjoint target.names)
    (both : known ⊆ source.names ++ target.names) (h : chosen wanted source target = .error e) :
    Mistake wanted known e := by
  cases refused_of_chosen h with
  | twice again => exact .twice again
  | both asked here there => exact absurd there (apart here)
  | neither asked here there =>
    refine .unknown asked fun mem => ?_
    exact (List.mem_append.1 (both mem)).elim here there

/-- And always for them. -/
theorem chosen_eq_error_iff (apart : source.names.Disjoint target.names)
    (both : ∀ name, name ∈ known ↔ name ∈ source.names ++ target.names) :
    (∃ e, chosen wanted source target = .error e) ↔
      ¬wanted.Nodup ∨ ∃ name ∈ wanted, name ∉ known := by
  constructor
  · rintro ⟨e, h⟩
    cases mistake_of_chosen apart (fun name => (both name).1) h with
    | twice again =>
      refine .inl fun nodup => ?_
      have once := List.nodup_iff_count_le_one.1 nodup
      exact absurd (Nat.le_trans again (once _)) (by decide)
    | unknown asked missing => exact .inr ⟨_, asked, missing⟩
  · intro mistaken
    cases h : chosen wanted source target with
    | error e => exact ⟨e, rfl⟩
    | ok p =>
      obtain ⟨nodup, known, -, -⟩ := chosen_eq_ok h
      rcases mistaken with twice | ⟨name, asked, missing⟩
      · exact absurd nodup twice
      · exact absurd ((both name).2 (List.mem_append.2 (known name asked))) missing

end Atomistic.Partition
