import Atomistic.Proofs.LabelTables
import Atomistic.Proofs.Simulation
import Atomistic.Workers

/-!
# What workers have in common

Workers finish all rows if none fails, and otherwise one of the failures is reported. So whether all
rows are finished, and with which values, does not depend on the workers; which failure is reported
may. Here are the answers of workers without what was written beside them, and two runs beside each
other: rows that go alike are shared alike by the same workers, and where a row of the first run
lacks an answer that a row of the second run has, the second one may need workers of its own to
report the same failure.
-/

namespace Atomistic

variable {α β ι : Type} {strict : Prop}

/-! ### One row -/

namespace RowRun

/-- The values of a row, or why it was given up. -/
def outcome (run : RowRun α) : Except Error (List α) :=
  match run.failure with
  | none => .ok run.written
  | some e => .error e

/-- A row that is written column by column has the values of the columns. -/
theorem outcome_ofColumns (value : ι → Except Error α) :
    ∀ columns : List ι, (ofColumns value columns).outcome = columns.mapM value
  | [] => rfl
  | column :: rest => by
    rw [List.mapM_cons, ofColumns, ← outcome_ofColumns value rest]
    cases value column with
    | error e => rfl
    | ok x =>
      dsimp only [outcome]
      cases (ofColumns value rest).failure <;> rfl

/-- A row that failed in the first run failed for lack of an answer of a system. Strictly, so did the
row of the second run, and as much was written to it. All other rows went the same way. -/
def Alike (strict : Prop) (run run' : RowRun α) : Prop :=
  run = run' ∨ SystemFails run.outcome ∧
    (strict → SystemFails run'.outcome ∧ run.written = run'.written)

theorem systemFails_outcome {run : RowRun α} :
    SystemFails run.outcome ↔ ∃ cause, run.failure = some (.system cause) := by
  rw [outcome, SystemFails]
  cases run.failure <;> simp

/-- Rows are written alike if the answers for their columns agree. -/
theorem alike_ofColumns {value value' : ι → Except Error α}
    (h : ∀ column, Agree strict (value column) (value' column)) :
    ∀ columns, Alike strict (ofColumns value columns) (ofColumns value' columns)
  | [] => .inl rfl
  | column :: rest => by
    rw [ofColumns, ofColumns]
    rcases h column with same | ⟨⟨cause, fails⟩, also⟩
    · rw [same]
      cases value' column with
      | error e => exact .inl rfl
      | ok x =>
        rcases alike_ofColumns h rest with same | ⟨fails, also⟩
        · exact .inl (by rw [same])
        · have lacks := systemFails_outcome.1 fails
          refine .inr ⟨systemFails_outcome.2 lacks, fun strictly => ?_⟩
          obtain ⟨fails', written⟩ := also strictly
          have lacks' := systemFails_outcome.1 fails'
          exact ⟨systemFails_outcome.2 lacks', congrArg (x :: ·) written⟩
    · rw [fails]
      refine .inr ⟨⟨cause, rfl⟩, fun strictly => ?_⟩
      obtain ⟨cause', fails'⟩ := also strictly
      rw [fails']
      exact ⟨⟨cause', rfl⟩, rfl⟩

end RowRun

/-! ### All rows -/

namespace Workers

variable {w : Workers} {rows rows' : List (RowRun α)}

/-- Which rows fail. -/
def fails (rows : List (RowRun α)) : List Bool := rows.map (·.failure.isSome)

/-- What is written to all rows before they are given up. -/
def begun (w : Workers) (rows : List (RowRun α)) : List (List α) :=
  rows.mapIdx fun i row => if w.begins (fails rows) i then row.written else []

theorem share_eq (w : Workers) (rows : List (RowRun α)) : w.share rows =
    if (fails rows).contains true then
      (w.begun rows,
        match rows[w.reported (fails rows)]?.bind (·.failure) with
        | some e => .error e
        | none => .ok ())
    else (rows.map (·.written), .ok ()) := rfl

/-- All rows are finished, or the failure of one of them is reported. -/
theorem share_cases (w : Workers) (rows : List (RowRun α)) :
    (∀ row ∈ rows, row.failure = none) ∧ w.share rows = (rows.map (·.written), .ok ()) ∨
      ∃ row e, rows[w.reported (fails rows)]? = some row ∧ row.failure = some e ∧
        w.share rows = (w.begun rows, .error e) := by
  by_cases some : true ∈ fails rows
  · obtain ⟨reported, -⟩ := w.reported_fails _ some
    rw [fails, List.getElem?_map, Option.map_eq_some_iff] at reported
    obtain ⟨row, there, failed⟩ := reported
    obtain ⟨e, failure⟩ := Option.isSome_iff_exists.1 failed
    refine .inr ⟨row, e, there, failure, ?_⟩
    rw [share_eq, if_pos (List.contains_iff_mem.2 some), fails, there, Option.bind_some, failure]
  · refine .inl ⟨fun row hrow => ?_, ?_⟩
    · by_contra failed
      exact some (List.mem_map.2 ⟨row, hrow, Option.isSome_iff_ne_none.2 failed⟩)
    · rw [share_eq, if_neg fun found => some (List.contains_iff_mem.1 found)]

/-- The failure of the row that the workers choose is the one that is reported. -/
theorem share_of_failure {row : RowRun α} {e : Error}
    (there : rows[w.reported (fails rows)]? = some row) (failure : row.failure = some e) :
    w.share rows = (w.begun rows, .error e) := by
  rcases w.share_cases rows with ⟨none, -⟩ | ⟨row', e', there', failure', shared⟩
  · rw [none row (List.mem_of_getElem? there)] at failure
    cases failure
  · cases there.symm.trans there'
    cases failure.symm.trans failure'
    exact shared

/-! ### Answers -/

/-- The answers for all rows, unless one of them fails. -/
def all (w : Workers) (outcomes : List (Except Error β)) : Except Error (List β) :=
  match outcomes[w.reported (outcomes.map (!·.isOk))]? with
  | some (.error e) => .error e
  | _ => outcomes.mapM id

/-- They are all there exactly if no row fails, for any workers. -/
theorem all_eq_ok {outcomes : List (Except Error β)} {answers : List β} :
    w.all outcomes = .ok answers ↔ outcomes.mapM id = .ok answers := by
  rw [all]
  split
  · next e reported =>
    refine ⟨nofun, fun h => ?_⟩
    obtain ⟨b, failed⟩ := exists_mapM_eq_ok.1 ⟨_, h⟩ _ (List.mem_of_getElem? reported)
    cases failed
  · rfl

theorem all_map_eq_ok {f : ι → Except Error β} {items : List ι} {answers : List β} :
    w.all (items.map f) = .ok answers ↔ items.mapM f = .ok answers := by
  rw [all_eq_ok, List.mapM_map, Function.id_comp]

/-- Otherwise the failure of a row is reported. -/
theorem mem_of_all_eq_error {outcomes : List (Except Error β)} {e : Error}
    (h : w.all outcomes = .error e) : .error e ∈ outcomes := by
  rw [all] at h
  split at h
  · next reported =>
    cases h
    exact List.mem_of_getElem? reported
  · obtain ⟨x, hx, failed⟩ := except_mapM_eq_error h
    exact failed ▸ hx

/-- What the workers answer, written rows being left aside when it is a failure. -/
theorem map_share (w : Workers) (rows : List (RowRun α)) :
    (w.share rows).2.map (fun _ => (w.share rows).1) = w.all (rows.map RowRun.outcome) := by
  have which : (rows.map RowRun.outcome).map (!·.isOk) = fails rows := by
    rw [List.map_map, fails]
    refine List.map_congr_left fun row _ => ?_
    rw [Function.comp, RowRun.outcome]
    cases row.failure <;> rfl
  rw [all, which, List.getElem?_map]
  rcases w.share_cases rows with ⟨none, shared⟩ | ⟨row, e, there, failure, shared⟩
  · have finished : ∀ row ∈ rows, row.outcome = .ok row.written := by
      intro row hrow
      rw [RowRun.outcome, none row hrow]
    rw [shared, List.mapM_map, Function.id_comp, except_mapM_eq_map finished]
    cases there : rows[w.reported (fails rows)]? with
    | none => rfl
    | some row =>
      rw [Option.map_some, finished row (List.mem_of_getElem? there)]
      rfl
  · rw [shared, there, Option.map_some, RowRun.outcome, failure]
    rfl

/-! ### Two runs -/

/-- Workers that begin all rows, and report the failure of a certain one if it fails. -/
def reporting (i : Nat) : Workers where
  begins _ _ := true
  reported fails := if fails[i]? = some true then i else fails.findIdx id
  reported_fails fails h := by
    refine ⟨?_, rfl⟩
    split
    · assumption
    · exact (inOrder.reported_fails fails h).1

theorem share_reporting {i : Nat} {row : RowRun α} {e : Error} (there : rows[i]? = some row)
    (failure : row.failure = some e) :
    (reporting i).share rows = ((reporting i).begun rows, .error e) := by
  have fails_there : (fails rows)[i]? = some true := by
    rw [fails, List.getElem?_map, there, Option.map_some, failure]
    rfl
  have reported : (reporting i).reported (fails rows) = i := if_pos fails_there
  exact share_of_failure (by rw [reported, there]) failure

/-- Rows that go alike and do not fail are the same. -/
theorem eq_of_alike (h : List.Forall₂ (RowRun.Alike strict) rows rows')
    (none : ∀ row ∈ rows, row.failure = none) : rows = rows' := by
  induction h with
  | nil => rfl
  | cons here _ ih =>
    rw [List.forall_mem_cons] at none
    rw [ih none.2]
    rcases here with same | ⟨lacks, -⟩
    · rw [same]
    · obtain ⟨cause, failed⟩ := RowRun.systemFails_outcome.1 lacks
      rw [none.1] at failed
      cases failed

/-- Strictly, the same rows fail, and as much is written to them. -/
theorem of_strictly_alike (h : List.Forall₂ (RowRun.Alike True) rows rows') :
    fails rows = fails rows' ∧ w.begun rows = w.begun rows' := by
  have same : List.Forall₂ (fun row row' : RowRun α =>
      row.failure.isSome = row'.failure.isSome ∧ row.written = row'.written) rows rows' := by
    refine h.imp fun row row' alike => ?_
    rcases alike with rfl | ⟨lacks, also⟩
    · exact ⟨rfl, rfl⟩
    · obtain ⟨cause, failed⟩ := RowRun.systemFails_outcome.1 lacks
      obtain ⟨lacks', written⟩ := also trivial
      obtain ⟨cause', failed'⟩ := RowRun.systemFails_outcome.1 lacks'
      rw [failed, failed']
      exact ⟨rfl, written⟩
  have which : fails rows = fails rows' := by
    rw [fails, fails, ← List.forall₂_eq_eq_eq, List.forall₂_map_left_iff, List.forall₂_map_right_iff]
    exact same.imp fun _ _ both => both.1
  refine ⟨which, ?_⟩
  rw [begun, begun, which]
  refine List.ext_getElem (by simp [h.length_eq]) fun i hi hi' => ?_
  rw [List.length_mapIdx] at hi hi'
  have written : rows[i].written = rows'[i].written := (same.get hi hi').2
  rw [List.getElem_mapIdx, List.getElem_mapIdx, written]

theorem exists_alike (h : List.Forall₂ (RowRun.Alike strict) rows rows') {i : Nat} {row : RowRun α}
    (there : rows[i]? = some row) : ∃ row', rows'[i]? = some row' ∧ RowRun.Alike strict row row' := by
  obtain ⟨inside, rfl⟩ := List.getElem?_eq_some_iff.1 there
  have inside' : i < rows'.length := h.length_eq ▸ inside
  exact ⟨rows'[i], List.getElem?_eq_getElem inside', h.get inside inside'⟩

/-- Rows that go alike are shared alike. Strictly, the same workers are meant. -/
theorem share_of_alike (h : List.Forall₂ (RowRun.Alike strict) rows rows') (w : Workers) :
    ∃ w' : Workers, (strict → w' = w) ∧ Agree strict (w.share rows).2 (w'.share rows').2 ∧
      (strict ∨ (w.share rows).2 = .ok () → (w.share rows).1 = (w'.share rows').1) := by
  rcases w.share_cases rows with ⟨none, shared⟩ | ⟨row, e, there, failure, shared⟩
  · rw [eq_of_alike h none]
    exact ⟨w, fun _ => rfl, agree_rfl, fun _ => rfl⟩
  obtain ⟨row', there', alike⟩ := exists_alike h there
  by_cases strictly : strict
  · have alike_rows : List.Forall₂ (RowRun.Alike True) rows rows' := by
      rwa [eq_true strictly] at h
    obtain ⟨which, begun⟩ := of_strictly_alike (w := w) alike_rows
    rw [which] at there'
    refine ⟨w, fun _ => rfl, ?_⟩
    rcases alike with same | ⟨lacks, also⟩
    · rw [shared, share_of_failure there' (same ▸ failure)]
      exact ⟨agree_rfl, fun _ => begun⟩
    · obtain ⟨cause, failed⟩ := RowRun.systemFails_outcome.1 lacks
      obtain ⟨cause', lacks'⟩ := RowRun.systemFails_outcome.1 (also strictly).1
      cases failure.symm.trans failed
      rw [shared, share_of_failure there' lacks']
      exact ⟨.inr ⟨⟨cause, rfl⟩, fun _ => ⟨cause', rfl⟩⟩, fun _ => begun⟩
  · refine ⟨reporting (w.reported (fails rows)), fun yes => absurd yes strictly, ?_, ?_⟩
    · rw [shared]
      rcases alike with same | ⟨lacks, -⟩
      · rw [share_reporting there' (same ▸ failure)]
        exact agree_rfl
      · obtain ⟨cause, failed⟩ := RowRun.systemFails_outcome.1 lacks
        cases failure.symm.trans failed
        exact .inr ⟨⟨cause, rfl⟩, fun yes => absurd yes strictly⟩
    · rw [shared]
      rintro (yes | ⟨⟨⟩⟩)
      exact absurd yes strictly

end Workers

end Atomistic
