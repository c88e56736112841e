import Atomistic.Error

/-!
# Rows shared by workers

The rows of a table can be computed by several workers at once. When a row fails, the others are
given up sooner or later: by then some of them are done or have failed as well, and some were never
begun. What was written to a row stays there. Which rows are begun, and which one of several failures
is reported, depends on how the workers take turns. Nobody promises anything about it except that
one of the failures is reported, so it is left open here.
-/

namespace Atomistic

/-- How far the computation of a row got. -/
structure RowRun (α : Type) where
  /-- The values that were written, from the first column on. -/
  written : List α
  /-- Why the row was given up, if it was. -/
  failure : Option Error

namespace RowRun

variable {ι α : Type}

/-- A row that was given up before anything was written. -/
def failed (e : Error) : RowRun α := ⟨[], some e⟩

/-- Write the value of one column after the other, until one of them fails. -/
def ofColumns (value : ι → Except Error α) : List ι → RowRun α
  | [] => ⟨[], none⟩
  | column :: rest =>
    match value column with
    | .ok x =>
      let run := ofColumns value rest
      { run with written := x :: run.written }
    | .error e => failed e

end RowRun

/-- The choices of workers, given for each row whether it fails. -/
structure Workers where
  /-- Is a row begun before the rest is given up? -/
  begins : List Bool → Nat → Bool
  /-- The row whose failure is reported. -/
  reported : List Bool → Nat
  /-- If there is a row that fails, one that was begun and failed is reported. -/
  reported_fails : ∀ fails, true ∈ fails →
    fails[reported fails]? = some true ∧ begins fails (reported fails) = true

namespace Workers

variable {α : Type}

/-- A single worker, which takes the rows in their order. -/
def inOrder : Workers where
  begins fails i := i ≤ fails.findIdx id
  reported fails := fails.findIdx id
  reported_fails fails h := by
    have found : fails.findIdx id < fails.length := List.findIdx_lt_length.2 ⟨true, h, rfl⟩
    refine ⟨?_, decide_eq_true (Nat.le_refl _)⟩
    rw [List.getElem?_eq_getElem found]
    exact congrArg some (List.findIdx_getElem (w := found))

/-- What is written to each row, and how that went. -/
def share (w : Workers) (rows : List (RowRun α)) : List (List α) × Except Error Unit :=
  let fails := rows.map (·.failure.isSome)
  if fails.contains true then
    (rows.mapIdx fun i row => if w.begins fails i then row.written else [],
      match rows[w.reported fails]?.bind (·.failure) with
      | some e => .error e
      | none => .ok ())
  else (rows.map (·.written), .ok ())

end Workers

end Atomistic
