import Atomistic.Proofs.FirstSeen
import Atomistic.Proofs.LabelTables

/-!
# Moving entries of a table

Densification writes the values of a table into a larger one: columns are split into blocks that
become rows, or rows into blocks that become columns. Read through its tables of labels, the new
table has the entry of the old one at the place where the labels of its row and column went, and zero
where nothing went. `entry_splitColumns` and `entry_splitRows` say so for any labels, whether or not
there is a row or a column with them.
-/

namespace Atomistic

/-! ### Positions -/

section Positions

variable {β γ δ : Type} [BEq β] [LawfulBEq β] [BEq γ] [LawfulBEq γ] [BEq δ] [LawfulBEq δ]

theorem getElem?_of_idxOf? {xs : List β} {x : β} {i : Nat} (h : xs.idxOf? x = some i) :
    i < xs.length ∧ xs[i]? = some x := by
  obtain ⟨hi, hx, -⟩ := List.idxOf?_eq_some_iff.1 h
  exact ⟨hi, by rw [List.getElem?_eq_getElem hi, hx]⟩

/-- An injective function keeps positions. -/
theorem idxOf?_map {f : β → γ} {x : β} : ∀ {xs : List β}, (∀ y ∈ xs, f y = f x → y = x) →
    (xs.map f).idxOf? (f x) = xs.idxOf? x
  | [], _ => by simp
  | y :: xs, inj => by
    rw [List.map_cons, List.idxOf?_cons, List.idxOf?_cons,
      idxOf?_map fun z hz => inj z (List.mem_cons_of_mem _ hz)]
    by_cases h : f y = f x
    · simp [inj y List.mem_cons_self h]
    · have hy : y ≠ x := fun e => h (e ▸ rfl)
      simp [h, hy]

omit [LawfulBEq β] in
theorem idxOf?_append {xs ys : List β} {x : β} :
    (xs ++ ys).idxOf? x = (xs.idxOf? x).or ((ys.idxOf? x).map (· + xs.length)) :=
  List.findIdx?_append

/-- Blocks of the same elements follow each other: the place in such a list comes from the number of
the block, and from the place inside of it. -/
theorem idxOf?_flatMap_map {join : β → γ → δ} {inner : List γ} {b : β} {c : γ} :
    ∀ {outer : List β}, (∀ b' ∈ outer, ∀ c' ∈ inner, join b' c' = join b c → b' = b ∧ c' = c) →
      (outer.flatMap fun b' => inner.map (join b')).idxOf? (join b c)
        = (outer.idxOf? b).bind fun i => (inner.idxOf? c).map (i * inner.length + ·)
  | [], _ => by simp
  | b' :: outer, inj => by
    have rest := idxOf?_flatMap_map fun b'' hb'' => inj b'' (List.mem_cons_of_mem _ hb'')
    have here := inj b' List.mem_cons_self
    rw [List.flatMap_cons, idxOf?_append, rest, List.idxOf?_cons, List.length_map]
    -- positions in the later blocks are counted on from the length of the first one
    by_cases hb : b' = b
    · subst hb
      rw [idxOf?_map fun c' hc' h => (here c' hc' h).2]
      cases inner.idxOf? c <;> cases outer.idxOf? b' <;> simp
    · have absent : (inner.map (join b')).idxOf? (join b c) = none := by
        refine List.idxOf?_eq_none_iff.2 fun mem => ?_
        obtain ⟨c', hc', h⟩ := List.mem_map.1 mem
        exact hb (here c' hc' h).1
      rw [absent]
      cases inner.idxOf? c <;> cases outer.idxOf? b <;> simp [hb, Nat.succ_mul]
      omega

end Positions

/-! ### Entries -/

namespace Dense

variable {α : Type} [Scalar α]

/-- The value in the row and the column with the given labels, zero if one of them is missing. -/
def entry (values : Dense α) (rows columns : Labels) (row column : List Int) : α :=
  match rows.position row, columns.position column with
  | some i, some j => (values.get? i j).getD Scalar.zero
  | _, _ => Scalar.zero

variable {values : Dense α} {rows columns : Labels} {row column : List Int}

theorem entry_eq {i j : Nat} (hi : rows.position row = some i)
    (hj : columns.position column = some j) :
    values.entry rows columns row column = (values.get? i j).getD Scalar.zero := by
  rw [entry, hi, hj]

theorem entry_of_row (h : rows.position row = none) :
    values.entry rows columns row column = Scalar.zero := by
  rw [entry, h]

theorem entry_of_column (h : columns.position column = none) :
    values.entry rows columns row column = Scalar.zero := by
  rw [entry, h]
  cases rows.position row <;> rfl

theorem getD_get?_gather {r c i j : Nat} {source : Nat → Nat → Option (Nat × Nat)} (hi : i < r)
    (hj : j < c) :
    ((values.gather r c source).get? i j).getD Scalar.zero
      = match source i j with
        | some (row, column) => (values.get? row column).getD Scalar.zero
        | none => Scalar.zero := by
  rw [gather, get?_ofFn, if_pos ⟨hi, hj⟩]
  rfl

end Dense

namespace Descriptor

/-! ### Splittings -/

namespace Splitting

/-- The splitting parts the rows `xs` by `part`: it has all first and second parts, and knows which
of the rows has which parts. -/
structure Splits (s : Splitting) (xs : List (List Int)) (part : List Int → List Int × List Int) :
    Prop where
  firsts : ∀ x ∈ xs, (part x).1 ∈ s.firsts.toList
  seconds : ∀ x ∈ xs, (part x).2 ∈ s.seconds.toList
  sources : ∀ parts, s.sources[parts]? = (xs.map part).idxOf? parts

variable {s : Splitting} {xs : List (List Int)} {part : List Int → List Int × List Int}

theorem splits_ofParts (h : (xs.map part).Nodup) : Splits (ofParts (xs.map part)) xs part where
  firsts x hx := by
    simp only [ofParts, List.toList_toArray, mem_firstSeen, List.map_map]
    exact List.mem_map.2 ⟨x, hx, rfl⟩
  seconds x hx := by
    simp only [ofParts, List.toList_toArray, mem_firstSeen, List.map_map]
    exact List.mem_map.2 ⟨x, hx, rfl⟩
  sources parts := getElem?_numbering h parts

/-- More second parts do no harm. -/
theorem Splits.withSeconds (h : Splits s xs part) {seconds : Array (List Int)}
    (all : ∀ x ∈ xs, (part x).2 ∈ seconds.toList) : Splits { s with seconds } xs part :=
  ⟨h.firsts, all, h.sources⟩

theorem Splits.source? {x : List Int} (h : Splits s xs part)
    (inj : ∀ y ∈ xs, part y = part x → y = x) {i k : Nat}
    (hi : s.firsts.toList.idxOf? (part x).1 = some i)
    (hk : s.seconds.toList.idxOf? (part x).2 = some k) : s.source? i k = xs.idxOf? x := by
  have hfirst : s.firsts[i]? = some (part x).1 := by
    simpa using (getElem?_of_idxOf? hi).2
  have hsecond : s.seconds[k]? = some (part x).2 := by
    simpa using (getElem?_of_idxOf? hk).2
  simp only [Splitting.source?, hfirst, hsecond, Option.bind_eq_bind, Option.bind_some]
  rw [h.sources, idxOf?_map inj]

theorem Splits.idxOf?_of_firsts {x : List Int} (h : Splits s xs part)
    (hi : s.firsts.toList.idxOf? (part x).1 = none) : xs.idxOf? x = none :=
  List.idxOf?_eq_none_iff.2 fun hx => List.idxOf?_eq_none_iff.1 hi (h.firsts x hx)

theorem Splits.idxOf?_of_seconds {x : List Int} (h : Splits s xs part)
    (hk : s.seconds.toList.idxOf? (part x).2 = none) : xs.idxOf? x = none :=
  List.idxOf?_eq_none_iff.2 fun hx => List.idxOf?_eq_none_iff.1 hk (h.seconds x hx)

theorem block_lt {rows blocks i k : Nat} (hi : i < rows) (hk : k < blocks) :
    i * blocks + k < rows * blocks := by
  calc i * blocks + k < i * blocks + blocks := by omega
    _ = (i + 1) * blocks := by rw [Nat.succ_mul]
    _ ≤ rows * blocks := Nat.mul_le_mul_right _ hi

theorem block_div {blocks k : Nat} (hk : k < blocks) (i : Nat) :
    (i * blocks + k) / blocks = i := by
  rw [Nat.mul_comm, Nat.mul_add_div (by omega), Nat.div_eq_of_lt hk, Nat.add_zero]

theorem block_mod {blocks k : Nat} (hk : k < blocks) (i : Nat) :
    (i * blocks + k) % blocks = k := by
  rw [Nat.mul_comm, Nat.mul_add_mod, Nat.mod_eq_of_lt hk]

theorem getD_places {i k : Nat} (hi : i < s.firsts.size) (hk : k < s.seconds.size) :
    s.places.getD (i * s.seconds.size + k) none = s.source? i k := by
  have lt : i * s.seconds.size + k < s.places.size := by
    rw [places, Array.size_ofFn]
    exact block_lt hi hk
  rw [Array.getD_eq_getD_getElem?, Array.getElem?_eq_getElem lt, Option.getD_some]
  simp only [places, Array.getElem_ofFn, block_div hk, block_mod hk]

end Splitting

open Splitting

variable {α : Type} [Scalar α] {values : Dense α} {s : Splitting}
  {part : List Int → List Int × List Int} {rows columns newRows newColumns : Labels}

/-- When columns are split, the entry of a row and a column goes to the row in the block of the first
part of the column, and to the column of its second part. -/
theorem entry_splitColumns (splits : Splits s columns.rows part)
    (hrows : values.rows = rows.count) {join : List Int → List Int → List Int}
    (newRows_eq : newRows.rows = rows.rows.flatMap fun r => s.firsts.toList.map (join r))
    (newColumns_eq : newColumns.rows = s.seconds.toList) {row column : List Int}
    (inj : ∀ f ∈ columns.rows, part f = part column → f = column)
    (join_inj : ∀ r ∈ rows.rows, ∀ b ∈ s.firsts.toList,
      join r b = join row (part column).1 → r = row ∧ b = (part column).1) :
    (splitColumns values s).entry newRows newColumns (join row (part column).1) (part column).2
      = values.entry rows columns row column := by
  have hposition : newRows.position (join row (part column).1)
      = (rows.position row).bind fun i =>
        (s.firsts.toList.idxOf? (part column).1).map (i * s.firsts.toList.length + ·) := by
    rw [Labels.position, newRows_eq, idxOf?_flatMap_map join_inj]
    rfl
  have hcolumn : newColumns.position (part column).2
      = s.seconds.toList.idxOf? (part column).2 := by
    rw [Labels.position, newColumns_eq]
  cases hr : rows.position row with
  | none =>
    rw [Dense.entry_of_row hr, Dense.entry_of_row (by rw [hposition, hr]; rfl)]
  | some i =>
    cases hb : s.firsts.toList.idxOf? (part column).1 with
    | none =>
      rw [Dense.entry_of_column (splits.idxOf?_of_firsts hb),
        Dense.entry_of_row (by rw [hposition, hr, hb]; rfl)]
    | some k =>
      cases hc : s.seconds.toList.idxOf? (part column).2 with
      | none =>
        rw [Dense.entry_of_column (splits.idxOf?_of_seconds hc),
          Dense.entry_of_column (hcolumn.trans hc)]
      | some j =>
        have hi : i < values.rows := hrows ▸ (getElem?_of_idxOf? hr).1
        have hk : k < s.firsts.size := (getElem?_of_idxOf? hb).1
        have hj : j < s.seconds.size := (getElem?_of_idxOf? hc).1
        have hplace : newRows.position (join row (part column).1)
            = some (i * s.firsts.size + k) := by
          rw [hposition, hr, hb]
          rfl
        rw [Dense.entry_eq hplace (hcolumn.trans hc), splitColumns,
          Dense.getD_get?_gather (block_lt hi hk) hj, block_div hk, block_mod hk,
          getD_places hk hj, splits.source? inj hb hc, ← Labels.position]
        cases hcol : columns.position column with
        | none => rw [Dense.entry_of_column hcol]; rfl
        | some c => rw [Dense.entry_eq hr hcol]; rfl

/-- When rows are split, the entry of a row and a column goes to the row of the first part of the
row, and to the column in the block of its second part. -/
theorem entry_splitRows (values : Dense α) (splits : Splits s rows.rows part)
    (hcolumns : values.columns = columns.count)
    (newRows_eq : newRows.rows = s.firsts.toList)
    (newColumns_eq : newColumns.rows
      = s.seconds.toList.flatMap fun block => columns.rows.map fun f => block ++ f)
    (row column : List Int) (inj : ∀ r ∈ rows.rows, part r = part row → r = row)
    (width : ∀ b ∈ s.seconds.toList, b.length = (part row).2.length) :
    (splitRows values s).entry newRows newColumns (part row).1 ((part row).2 ++ column)
      = values.entry rows columns row column := by
  have hposition : newColumns.position ((part row).2 ++ column)
      = (s.seconds.toList.idxOf? (part row).2).bind fun k =>
        (columns.position column).map (k * columns.rows.length + ·) := by
    rw [Labels.position, newColumns_eq, idxOf?_flatMap_map]
    · rfl
    · intro b hb c _ h
      exact List.append_inj h (width b hb)
  have hrow : newRows.position (part row).1 = s.firsts.toList.idxOf? (part row).1 := by
    rw [Labels.position, newRows_eq]
  cases hc : columns.position column with
  | none =>
    have absent : newColumns.position ((part row).2 ++ column) = none := by
      rw [hposition, hc]
      cases s.seconds.toList.idxOf? (part row).2 <;> rfl
    rw [Dense.entry_of_column hc, Dense.entry_of_column absent]
  | some j =>
    cases hf : s.firsts.toList.idxOf? (part row).1 with
    | none =>
      rw [Dense.entry_of_row (splits.idxOf?_of_firsts hf), Dense.entry_of_row (hrow.trans hf)]
    | some i =>
      cases hb : s.seconds.toList.idxOf? (part row).2 with
      | none =>
        rw [Dense.entry_of_row (splits.idxOf?_of_seconds hb),
          Dense.entry_of_column (by rw [hposition, hb]; rfl)]
      | some k =>
        have hi : i < s.firsts.size := (getElem?_of_idxOf? hf).1
        have hk : k < s.seconds.size := (getElem?_of_idxOf? hb).1
        have hj : j < values.columns := hcolumns ▸ (getElem?_of_idxOf? hc).1
        have hplace : newColumns.position ((part row).2 ++ column)
            = some (k * values.columns + j) := by
          rw [hposition, hb, hc, hcolumns]
          rfl
        rw [Dense.entry_eq (hrow.trans hf) hplace, splitRows,
          Dense.getD_get?_gather hi (block_lt hk hj), block_div hj, block_mod hj,
          getD_places hi hk, splits.source? inj hf hb, ← Labels.position]
        cases hr : rows.position row with
        | none => rw [Dense.entry_of_row hr]; rfl
        | some r => rw [Dense.entry_eq hr hc]; rfl

end Descriptor

end Atomistic
