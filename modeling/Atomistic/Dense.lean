import Atomistic.Scalar

/-!
# Dense tables of values

A table of values with a number of rows and a number of columns, stored row after row. Either
number may be zero while the other one is not. Tables that are not needed any more are used again:
`reset` makes one of them a table of zeros, of whatever shape, and `write` puts values into it.
-/

namespace Atomistic

/-- The array cut off after `n` elements, or filled up to `n` elements with `x`. -/
def resize {β : Type} (xs : Array β) (n : Nat) (x : β) : Array β :=
  xs.shrink n ++ Array.replicate (n - xs.size) x

theorem size_resize {β : Type} (xs : Array β) (n : Nat) (x : β) : (resize xs n x).size = n := by
  rw [resize, Array.size_append, Array.size_shrink, Array.size_replicate]
  omega

/-- A rectangular table of values. -/
structure Dense (α : Type) where
  rows : Nat
  columns : Nat
  entries : Array α
  size_eq : entries.size = rows * columns
  deriving DecidableEq

namespace Dense

variable {α : Type}

@[ext] theorem ext {d e : Dense α} (rows : d.rows = e.rows) (columns : d.columns = e.columns)
    (entries : d.entries = e.entries) : d = e := by
  cases d; cases e; subst rows; subst columns; subst entries; rfl

/-- The table with the given value in each row and column. -/
def ofFn (rows columns : Nat) (f : Nat → Nat → α) : Dense α where
  rows := rows
  columns := columns
  entries := Array.ofFn fun k : Fin (rows * columns) => f (k / columns) (k % columns)
  size_eq := Array.size_ofFn

/-- The value in a row and a column. -/
def get? (d : Dense α) (row column : Nat) : Option α :=
  if column < d.columns then d.entries[row * d.columns + column]? else none

/-- The values of a row. -/
def row (d : Dense α) (i : Nat) : List α := (List.range d.columns).filterMap (d.get? i)

/-- The values, row after row. -/
def toLists (d : Dense α) : List (List α) := (List.range d.rows).map d.row

/-- Are there no values? -/
def isEmpty (d : Dense α) : Bool := d.entries.isEmpty

/-- The table of the same shape with the value that `f` gives for each number of an entry. -/
def fill (d : Dense α) (f : Nat → α) : Dense α where
  rows := d.rows
  columns := d.columns
  entries := Array.ofFn fun k : Fin (d.rows * d.columns) => f k
  size_eq := Array.size_ofFn

theorem place_div {i j columns : Nat} (h : j < columns) : (i * columns + j) / columns = i := by
  rw [Nat.mul_comm, Nat.mul_add_div (by omega), Nat.div_eq_of_lt h, Nat.add_zero]

theorem place_mod {i j columns : Nat} (h : j < columns) : (i * columns + j) % columns = j := by
  rw [Nat.mul_comm, Nat.mul_add_mod, Nat.mod_eq_of_lt h]

theorem get?_ofFn (rows columns : Nat) (f : Nat → Nat → α) (i j : Nat) :
    (ofFn rows columns f).get? i j = if i < rows ∧ j < columns then some (f i j) else none := by
  by_cases hj : j < columns
  · by_cases hi : i < rows
    · have h : i * columns + j < rows * columns := by
        calc i * columns + j < i * columns + columns := by omega
          _ = (i + 1) * columns := by rw [Nat.succ_mul]
          _ ≤ rows * columns := Nat.mul_le_mul_right _ hi
      simp [get?, ofFn, hi, hj, h, place_div hj, place_mod hj]
    · have h : rows * columns ≤ i * columns + j :=
        Nat.le_trans (Nat.mul_le_mul_right _ (by omega)) (Nat.le_add_right _ _)
      simp [get?, ofFn, hi, hj, h]
  · simp [get?, ofFn, hj]

/-- The table with the given values at the beginning of its rows, and its own values in all other
places. -/
def write (d : Dense α) (lists : List (List α)) : Dense α :=
  let table := (lists.map List.toArray).toArray
  { d with
    entries := d.entries.mapIdx fun k x =>
      ((table[k / d.columns]?).bind fun row => row[k % d.columns]?).getD x
    size_eq := by rw [Array.size_mapIdx, d.size_eq] }

theorem get?_write (d : Dense α) (lists : List (List α)) (i j : Nat) :
    (d.write lists).get? i j
      = (d.get? i j).map fun x => ((lists[i]?).bind fun row => row[j]?).getD x := by
  have asArray : ((lists.map List.toArray)[i]?).bind (fun row => row[j]?)
      = (lists[i]?).bind fun row => row[j]? := by
    rw [List.getElem?_map]
    cases lists[i]? <;> simp
  by_cases hj : j < d.columns
  · simp [get?, write, hj, place_div hj, place_mod hj, ← asArray]
  · simp [get?, write, hj]

variable [Scalar α]

/-- A table full of zeros. -/
def zeros (rows columns : Nat) : Dense α := ofFn rows columns fun _ _ => Scalar.zero

/-- A table whose entries are those of `d` at the places that `source` says, and zero where it says
none. -/
def gather (d : Dense α) (rows columns : Nat) (source : Nat → Nat → Option (Nat × Nat)) :
    Dense α :=
  ofFn rows columns fun i j =>
    match source i j with
    | some (row, column) => (d.get? row column).getD Scalar.zero
    | none => Scalar.zero

/-- A table of zeros of the given shape, in the array of `d`: a table that has this shape is
overwritten, the array of another one is emptied and filled up again. -/
def reset (d : Dense α) (rows columns : Nat) : Dense α :=
  if d.rows = rows ∧ d.columns = columns then
    { d with
      entries := d.entries.map fun _ => Scalar.zero
      size_eq := by rw [Array.size_map, d.size_eq] }
  else
    { rows := rows
      columns := columns
      entries := resize (d.entries.shrink 0) (rows * columns) Scalar.zero
      size_eq := size_resize .. }

/-- Nothing is left of a table that is used again. -/
theorem reset_eq_zeros (d : Dense α) (rows columns : Nat) :
    d.reset rows columns = zeros rows columns := by
  rw [reset]
  split
  · next same =>
    obtain ⟨rfl, rfl⟩ := same
    refine ext rfl rfl (Array.ext (by simp [zeros, ofFn, d.size_eq]) fun k _ _ => ?_)
    simp [zeros, ofFn]
  · refine ext rfl rfl (Array.ext (by simp [zeros, ofFn, size_resize]) fun k _ _ => ?_)
    simp [zeros, ofFn, resize]

end Dense

end Atomistic
