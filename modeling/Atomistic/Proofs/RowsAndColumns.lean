import Atomistic.Proofs.Variables

/-!
# Rows and columns by their labels

A row of a table of values is found by the labels that describe it, and so is a column. Both hold
the entries of the table in the order of the other table of labels, and a table is known from its
rows or from its columns. When values are put into another table, it is said of whole rows or
columns where they went and what stands in the places that none of them took.
-/

namespace Atomistic

theorem Labels.exists_position {t : Labels} {row : List Int} (h : row ∈ t.rows) :
    ∃ i, ∃ hi : i < t.rows.length, t.rows[i] = row ∧ t.position row = some i := by
  obtain ⟨i, hi, rfl⟩ := List.getElem_of_mem h
  exact ⟨i, hi, rfl, t.position_getElem hi⟩

namespace Dense

variable {α : Type}

/-- The values of a column. -/
def column (d : Dense α) (j : Nat) : List α := (List.range d.rows).filterMap (d.get? · j)

/-- The row with the given labels, if there is one. -/
def rowOf (values : Dense α) (rows : Labels) (label : List Int) : Option (List α) :=
  (rows.position label).map values.row

/-- The column with the given labels, if there is one. -/
def columnOf (values : Dense α) (columns : Labels) (label : List Int) : Option (List α) :=
  (columns.position label).map values.column

/-- Values that have a row and a column for all labels of two tables. -/
structure Fits (values : Dense α) (rows columns : Labels) : Prop where
  rows : values.rows = rows.count
  columns : values.columns = columns.count

theorem exists_get? (d : Dense α) {i j : Nat} (hi : i < d.rows) (hj : j < d.columns) :
    ∃ x, d.get? i j = some x := by
  have lt : i * d.columns + j < d.entries.size := by
    rw [d.size_eq]
    exact Descriptor.Splitting.block_lt hi hj
  exact ⟨d.entries[i * d.columns + j], by rw [get?, if_pos hj, Array.getElem?_eq_getElem lt]⟩

/-- A table is known from its entries. -/
theorem ext_get? {d e : Dense α} (rows : d.rows = e.rows) (columns : d.columns = e.columns)
    (same : ∀ i < d.rows, ∀ j < d.columns, d.get? i j = e.get? i j) : d = e := by
  refine Dense.ext rows columns (Array.ext (by rw [d.size_eq, e.size_eq, rows, columns]) ?_)
  intro k hk hk'
  rw [d.size_eq] at hk
  have hj : k % d.columns < d.columns := Nat.mod_lt _ (Nat.pos_of_lt_mul_left hk)
  have hi : k / d.columns < d.rows := Nat.div_lt_of_lt_mul (Nat.mul_comm .. ▸ hk)
  have here := same _ hi _ hj
  rw [get?, get?, if_pos hj, if_pos (columns ▸ hj), ← columns, Nat.mul_comm,
    Nat.div_add_mod] at here
  rw [← Option.some.injEq, ← Array.getElem?_eq_getElem, ← Array.getElem?_eq_getElem]
  exact here

variable [Scalar α] {values : Dense α} {rows columns : Labels}

theorem get?_eq_entry (fits : values.Fits rows columns) {i j : Nat} (hi : i < rows.rows.length)
    (hj : j < columns.rows.length) :
    values.get? i j = some (values.entry rows columns rows.rows[i] columns.rows[j]) := by
  obtain ⟨x, hx⟩ := values.exists_get? (i := i) (j := j) (fits.rows ▸ hi) (fits.columns ▸ hj)
  rw [entry_eq (rows.position_getElem hi) (columns.position_getElem hj), hx, Option.getD_some]

/-- A row holds the entries with its labels. -/
theorem rowOf_eq (fits : values.Fits rows columns) {row : List Int} (h : row ∈ rows.rows) :
    values.rowOf rows row = some (columns.rows.map (values.entry rows columns row)) := by
  obtain ⟨i, hi, rfl, position⟩ := Labels.exists_position h
  have found : ∀ j ∈ List.range columns.rows.length, values.get? i j
      = ((columns.rows[j]?).map (values.entry rows columns rows.rows[i])) := by
    intro j hj
    have hj := List.mem_range.1 hj
    rw [get?_eq_entry fits hi hj, List.getElem?_eq_getElem hj, Option.map_some]
  rw [rowOf, position, Option.map_some, Dense.row, fits.columns, Labels.count,
    List.filterMap_congr found, ← List.map_filterMap]
  exact congrArg (fun l => some (List.map _ l)) (Partition.pick_range columns.rows)

/-- A column holds the entries with its labels. -/
theorem columnOf_eq (fits : values.Fits rows columns) {column : List Int}
    (h : column ∈ columns.rows) : values.columnOf columns column
      = some (rows.rows.map fun row => values.entry rows columns row column) := by
  obtain ⟨j, hj, rfl, position⟩ := Labels.exists_position h
  have found : ∀ i ∈ List.range rows.rows.length, values.get? i j
      = ((rows.rows[i]?).map fun row => values.entry rows columns row columns.rows[j]) := by
    intro i hi
    have hi := List.mem_range.1 hi
    rw [get?_eq_entry fits hi hj, List.getElem?_eq_getElem hi, Option.map_some]
  rw [columnOf, position, Option.map_some, Dense.column, fits.rows, Labels.count,
    List.filterMap_congr found, ← List.map_filterMap]
  exact congrArg (fun l => some (List.map _ l)) (Partition.pick_range rows.rows)

/-! ### Values in another table -/

/-- Columns are put in the places of a new table, and its other columns are zero. -/
structure ColumnsMoved (old new : Labels) (place : List Int → List Int)
    (values values' : Dense α) : Prop where
  rows : values'.rows = values.rows
  columns : values'.columns = new.count
  moved : ∀ f ∈ old.rows, values'.columnOf new (place f) = values.columnOf old f
  zero : ∀ c ∈ new.rows, c ∉ old.rows.map place →
    values'.columnOf new c = some (List.replicate values.rows Scalar.zero)

/-- Rows are put in the places of a new table, and its other rows are zero. -/
structure RowsMoved (old new : Labels) (place : List Int → List Int)
    (values values' : Dense α) : Prop where
  rows : values'.rows = new.count
  columns : values'.columns = values.columns
  moved : ∀ row ∈ old.rows, values'.rowOf new (place row) = values.rowOf old row
  zero : ∀ row ∈ new.rows, row ∉ old.rows.map place →
    values'.rowOf new row = some (List.replicate values.columns Scalar.zero)

section Moved

variable {values' : Dense α} {old new : Labels} {place : List Int → List Int}

/-- What is known of all entries is known of the columns. -/
theorem columnsMoved (fits : values.Fits rows old) (fits' : values'.Fits rows new)
    (placed : ∀ f ∈ old.rows, place f ∈ new.rows)
    (moved : ∀ r ∈ rows.rows, ∀ f ∈ old.rows,
      values'.entry rows new r (place f) = values.entry rows old r f)
    (zero : ∀ r ∈ rows.rows, ∀ c ∈ new.rows, c ∉ old.rows.map place →
      values'.entry rows new r c = Scalar.zero) : ColumnsMoved old new place values values' where
  rows := fits'.rows.trans fits.rows.symm
  columns := fits'.columns
  moved f hf := by
    rw [columnOf_eq fits' (placed f hf), columnOf_eq fits hf]
    exact congrArg some (List.map_congr_left fun r hr => moved r hr f hf)
  zero c hc other := by
    rw [columnOf_eq fits' hc, fits.rows, Labels.count, ← List.map_const']
    exact congrArg some (List.map_congr_left fun r hr => zero r hr c hc other)

/-- What is known of all entries is known of the rows. -/
theorem rowsMoved (fits : values.Fits old columns) (fits' : values'.Fits new columns)
    (placed : ∀ row ∈ old.rows, place row ∈ new.rows)
    (moved : ∀ row ∈ old.rows, ∀ f ∈ columns.rows,
      values'.entry new columns (place row) f = values.entry old columns row f)
    (zero : ∀ row ∈ new.rows, row ∉ old.rows.map place → ∀ f ∈ columns.rows,
      values'.entry new columns row f = Scalar.zero) : RowsMoved old new place values values' where
  rows := fits'.rows
  columns := fits'.columns.trans fits.columns.symm
  moved row hrow := by
    rw [rowOf_eq fits' (placed row hrow), rowOf_eq fits hrow]
    exact congrArg some (List.map_congr_left fun f hf => moved row hrow f hf)
  zero row hrow other := by
    rw [rowOf_eq fits' hrow, fits.columns, Labels.count, ← List.map_const']
    exact congrArg some (List.map_congr_left fun f hf => zero row hrow other f hf)

/-- Only the places of the rows that are there matter. -/
theorem RowsMoved.congr {place' : List Int → List Int} (h : RowsMoved old new place values values')
    (same : ∀ row ∈ old.rows, place' row = place row) : RowsMoved old new place' values values' where
  rows := h.rows
  columns := h.columns
  moved row hrow := by rw [same row hrow, h.moved row hrow]
  zero row hrow other := h.zero row hrow (by rwa [← List.map_congr_left same])

/-- Columns that stay where they are make the same table. -/
theorem ColumnsMoved.eq_self (h : ColumnsMoved old old place values values')
    (fits : values.Fits rows old) (still : ∀ f ∈ old.rows, place f = f) : values' = values := by
  have fits' : values'.Fits rows old := ⟨h.rows.trans fits.rows, h.columns⟩
  refine ext_get? h.rows (h.columns.trans fits.columns.symm) fun i hi j hj => ?_
  have hi : i < rows.rows.length := by rwa [fits'.rows] at hi
  have hj : j < old.rows.length := by rwa [fits'.columns] at hj
  have there := List.getElem_mem hj
  have same := h.moved _ there
  rw [still _ there, columnOf_eq fits' there, columnOf_eq fits there, Option.some.injEq,
    List.map_inj_left] at same
  rw [get?_eq_entry fits' hi hj, get?_eq_entry fits hi hj, same _ (List.getElem_mem hi)]

end Moved

end Dense
end Atomistic
