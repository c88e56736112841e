import Atomistic.Labels
import Mathlib.Data.List.Nodup
import Mathlib.Data.List.Forall2

/-!
# Building tables of labels

A table carries the proofs that make it one, so there is a table with some names and rows exactly
when building it from them succeeds: `ofRows_eq_ok` needs to be told nothing else. What a table says
of itself (the width of its rows, each of them being there once) is then at hand for every table that
some computation built. Rows of gradients begin with rows of another table, that of the environments.
-/

namespace Atomistic

/-- Errors end a computation: one that has an answer got it from an answer of its first part. -/
theorem except_bind_eq_ok {β γ : Type} {x : Except Error β} {f : β → Except Error γ} {c : γ} :
    x >>= f = .ok c ↔ ∃ b, x = .ok b ∧ f b = .ok c := by
  cases x <;> simp [bind, Except.bind]

/-- One that fails does so in its first part or after it. -/
theorem except_bind_eq_error {β γ : Type} {x : Except Error β} {f : β → Except Error γ}
    {e : Error} : x >>= f = .error e ↔ x = .error e ∨ ∃ b, x = .ok b ∧ f b = .error e := by
  cases x <;> simp [bind, Except.bind]

theorem except_mapM_eq_ok {β γ : Type} {f : β → Except Error γ} :
    ∀ {xs : List β} {ys : List γ}, xs.mapM f = .ok ys ↔ List.Forall₂ (fun x y => f x = .ok y) xs ys
  | [], ys => by cases ys <;> simp [pure, Except.pure]
  | x :: xs, ys => by
    rw [List.mapM_cons, except_bind_eq_ok]
    constructor
    · rintro ⟨y, hy, h⟩
      obtain ⟨rest, hrest, h⟩ := except_bind_eq_ok.1 h
      cases h
      exact .cons hy (except_mapM_eq_ok.1 hrest)
    · rintro (_ | ⟨hy, hrest⟩)
      exact ⟨_, hy, except_bind_eq_ok.2 ⟨_, except_mapM_eq_ok.2 hrest, rfl⟩⟩

/-- The answers for a list are those for its elements. -/
theorem mem_of_mapM_eq_ok {β γ : Type} {f : β → Except Error γ} {xs : List β} {ys : List γ}
    (h : xs.mapM f = .ok ys) {y : γ} : y ∈ ys ↔ ∃ x ∈ xs, f x = .ok y := by
  have each := except_mapM_eq_ok.1 h
  clear h
  induction each with
  | nil => simp
  | cons hxy _ ih => simp [ih, hxy, eq_comm]

/-- Lists that are answers for the elements of a list are put together. -/
theorem mem_flatten_of_mapM_eq_ok {β γ : Type} {f : β → Except Error (List γ)} {xs : List β}
    {ys : List (List γ)} (h : xs.mapM f = .ok ys) {z : γ} :
    z ∈ ys.flatten ↔ ∃ x ∈ xs, ∃ zs, f x = .ok zs ∧ z ∈ zs := by
  rw [List.mem_flatten]
  constructor
  · rintro ⟨zs, hzs, hz⟩
    obtain ⟨x, hx, hxzs⟩ := (mem_of_mapM_eq_ok h).1 hzs
    exact ⟨x, hx, zs, hxzs, hz⟩
  · rintro ⟨x, hx, zs, hxzs, hz⟩
    exact ⟨zs, (mem_of_mapM_eq_ok h).2 ⟨x, hx, hxzs⟩, hz⟩

/-- A list has answers when each of its elements has one. -/
theorem exists_mapM_eq_ok {β γ : Type} {f : β → Except Error γ} {xs : List β} :
    (∃ ys, xs.mapM f = .ok ys) ↔ ∀ x ∈ xs, ∃ y, f x = .ok y := by
  induction xs with
  | nil => simp [pure, Except.pure]
  | cons x xs ih =>
    rw [List.forall_mem_cons, ← ih]
    constructor
    · rintro ⟨ys, h⟩
      rw [except_mapM_eq_ok] at h
      obtain _ | ⟨hy, hrest⟩ := h
      exact ⟨⟨_, hy⟩, _, except_mapM_eq_ok.2 hrest⟩
    · rintro ⟨⟨y, hy⟩, ys, hys⟩
      exact ⟨y :: ys, except_mapM_eq_ok.2 (.cons hy (except_mapM_eq_ok.1 hys))⟩

/-- A list has no answers when one of its elements has none. -/
theorem except_mapM_eq_error {β γ : Type} {f : β → Except Error γ} {e : Error} :
    ∀ {xs : List β}, xs.mapM f = .error e → ∃ x ∈ xs, f x = .error e
  | [], h => by cases h
  | x :: xs, h => by
    rw [List.mapM_cons] at h
    rcases except_bind_eq_error.1 h with first | ⟨y, -, h⟩
    · exact ⟨x, List.mem_cons_self, first⟩
    · rcases except_bind_eq_error.1 h with later | ⟨ys, -, h⟩
      · obtain ⟨z, hz, failed⟩ := except_mapM_eq_error later
        exact ⟨z, List.mem_cons_of_mem _ hz, failed⟩
      · cases h

/-- A part of a list has answers when the list has, and they are some of those. -/
theorem except_mapM_of_subset {β γ : Type} {f : β → Except Error γ} {xs part : List β} {ys : List γ}
    (h : xs.mapM f = .ok ys) (sub : part ⊆ xs) : ∃ zs, part.mapM f = .ok zs ∧ zs ⊆ ys := by
  have each := exists_mapM_eq_ok.1 ⟨ys, h⟩
  obtain ⟨zs, hzs⟩ := exists_mapM_eq_ok.2 fun x hx => each x (sub hx)
  refine ⟨zs, hzs, fun z hz => ?_⟩
  obtain ⟨x, hx, hxz⟩ := (mem_of_mapM_eq_ok hzs).1 hz
  exact (mem_of_mapM_eq_ok h).2 ⟨x, sub hx, hxz⟩

theorem except_forM_eq_ok {β : Type} {f : β → Except Error Unit} {xs : List β} :
    xs.forM f = .ok () ↔ ∀ x ∈ xs, f x = .ok () := by
  induction xs with
  | nil => simp [pure, Except.pure]
  | cons x xs ih =>
    rw [List.forM_eq_forM] at ih
    rw [List.forM_eq_forM, List.forM_cons, except_bind_eq_ok, List.forall_mem_cons, ← ih]
    exact ⟨fun ⟨(), hx, hrest⟩ => ⟨hx, hrest⟩, fun ⟨hx, hrest⟩ => ⟨(), hx, hrest⟩⟩

theorem except_mapM_congr {β γ : Type} {f g : β → Except Error γ} :
    ∀ {xs : List β}, (∀ x ∈ xs, f x = g x) → xs.mapM f = xs.mapM g
  | [], _ => rfl
  | x :: xs, h => by
    rw [List.forall_mem_cons] at h
    rw [List.mapM_cons, List.mapM_cons, h.1, except_mapM_congr h.2]

theorem except_mapM_eq_map {β γ : Type} {f : β → Except Error γ} {g : β → γ} {xs : List β}
    (h : ∀ x ∈ xs, f x = .ok (g x)) : xs.mapM f = .ok (xs.map g) := by
  rw [except_mapM_eq_ok, List.forall₂_map_right_iff, List.forall₂_same]
  exact h

theorem except_mapM_eq_self {β : Type} {f : β → Except Error β} {xs : List β}
    (h : ∀ x ∈ xs, f x = .ok x) : xs.mapM f = .ok xs := by
  rw [except_mapM_eq_map (g := id) h, List.map_id]

/-- Rows that are made of two pieces each are distinct when the pieces can be told from them. -/
theorem nodup_flatMap_map {β γ δ : Type} {outer : List β} {inner : β → List γ} {join : β → γ → δ}
    (h : outer.Nodup) (h' : ∀ b ∈ outer, (inner b).Nodup)
    (inj : ∀ b ∈ outer, ∀ c ∈ inner b, ∀ b' ∈ outer, ∀ c' ∈ inner b',
      join b c = join b' c' → b = b' ∧ c = c') :
    (outer.flatMap fun b => (inner b).map (join b)).Nodup := by
  refine List.nodup_flatMap.2 ⟨fun b hb => ?_, ?_⟩
  · exact (h' b hb).map_on fun c hc c' hc' same => (inj b hb c hc b hb c' hc' same).2
  · refine h.pairwise_of_forall_ne fun b hb b' hb' ne => ?_
    rintro row hrow hrow'
    obtain ⟨c, hc, rfl⟩ := List.mem_map.1 hrow
    obtain ⟨c', hc', same⟩ := List.mem_map.1 hrow'
    exact ne (inj b' hb' c' hc' b hb c hc same).1.symm

theorem NamesValid.of_subset {names others : List String} (h : NamesValid others)
    (sub : names ⊆ others) (nodup : names.Nodup) : NamesValid names :=
  ⟨fun name hname => h.identifiers name (sub hname), nodup⟩

namespace Labels

/-! ### Positions of rows -/

section Positions

variable {t : Labels} {row : List Int} {rows : List (List Int)} {i : Nat}

/-- In a list without repetitions, the position of a row and the row at a position are inverse to
each other. -/
theorem idxOf?_eq_some_iff (nodup : rows.Nodup) :
    rows.idxOf? row = some i ↔ rows[i]? = some row := by
  rw [List.idxOf?_eq_some_iff]
  constructor
  · rintro ⟨h, there, -⟩
    rw [List.getElem?_eq_getElem h, there]
  · intro h
    obtain ⟨hi, there⟩ := List.getElem?_eq_some_iff.1 h
    refine ⟨hi, there, fun j hj same => ?_⟩
    have once : rows[j] = rows[i] ↔ j = i := nodup.getElem_inj_iff
    exact Nat.ne_of_lt hj (once.1 (same.trans there.symm))

theorem position_eq_some_iff : t.position row = some i ↔ t.rows[i]? = some row :=
  idxOf?_eq_some_iff t.nodup

/-- A row is where the table says that it is. -/
theorem position_getElem (t : Labels) {i : Nat} (h : i < t.rows.length) :
    t.position t.rows[i] = some i :=
  position_eq_some_iff.2 (List.getElem?_eq_getElem h)

theorem position_eq_none : t.position row = none ↔ row ∉ t.rows := List.idxOf?_eq_none_iff

end Positions

namespace Builder

theorem finish_rows (b : Builder) : b.finish.rows = b.rows.toList := rfl

/-- A builder is made for names that a table may have, and for no others. -/
theorem new_eq_ok {names : List String} (valid : NamesValid names) :
    ∃ b, new names = .ok b ∧ b.names = names ∧ b.rows.toList = [] := by
  have none : names.find? (fun name => !isIdentifier name) = none := by
    simpa using valid.identifiers
  unfold new
  split
  · next name h => simp [h] at none
  · rw [dif_pos valid.nodup]
    exact ⟨_, rfl, rfl, rfl⟩

theorem of_new_eq_ok {names : List String} {b : Builder} (h : new names = .ok b) :
    b.names = names ∧ b.rows.toList = [] := by
  unfold new at h
  split at h
  · cases h
  · split at h
    · cases h
      exact ⟨rfl, rfl⟩
    · cases h

/-- A new row of the right width is added behind the others. -/
theorem add_eq_ok {b : Builder} {row : List Int} (width : row.length = b.names.length)
    (fresh : row ∉ b.rows.toList) :
    ∃ b', b.add row = .ok b' ∧ b'.names = b.names ∧ b'.rows.toList = b.rows.toList ++ [row] := by
  have none : b.positions[row]? = none := by
    rw [b.agree]
    exact List.idxOf?_eq_none_iff.2 fresh
  unfold add
  rw [dif_pos width]
  split
  · next existing h => simp [h] at none
  · exact ⟨_, rfl, rfl, Array.toList_push⟩

theorem of_add_eq_ok {b b' : Builder} {row : List Int} (h : b.add row = .ok b') :
    b'.names = b.names ∧ b'.rows.toList = b.rows.toList ++ [row] := by
  unfold add at h
  split at h
  · split at h
    · cases h
    · cases h
      exact ⟨rfl, Array.toList_push⟩
  · cases h

/-- Rows are added one after the other. -/
theorem addAll_eq_ok (b : Builder) (rows : List (List Int))
    (width : ∀ row ∈ rows, row.length = b.names.length) (nodup : (b.rows.toList ++ rows).Nodup) :
    ∃ b', b.addAll rows = .ok b' ∧ b'.names = b.names ∧ b'.rows.toList = b.rows.toList ++ rows := by
  induction rows generalizing b with
  | nil => exact ⟨b, rfl, rfl, by simp⟩
  | cons row rows ih =>
    have fresh : row ∉ b.rows.toList := fun mem =>
      (List.nodup_append.1 nodup).2.2 row mem row List.mem_cons_self rfl
    obtain ⟨b₁, h₁, names₁, rows₁⟩ := add_eq_ok (width row List.mem_cons_self) fresh
    obtain ⟨b₂, h₂, names₂, rows₂⟩ := ih b₁
      (fun r hr => names₁ ▸ width r (List.mem_cons_of_mem _ hr)) (by rw [rows₁]; simpa using nodup)
    refine ⟨b₂, ?_, names₂.trans names₁, by rw [rows₂, rows₁]; simp⟩
    rw [addAll, List.foldlM_cons, h₁]
    exact h₂

theorem of_addAll_eq_ok {rows : List (List Int)} {b b' : Builder} (h : b.addAll rows = .ok b') :
    b'.names = b.names ∧ b'.rows.toList = b.rows.toList ++ rows := by
  induction rows generalizing b with
  | nil =>
    cases h
    exact ⟨rfl, by simp⟩
  | cons row rows ih =>
    rw [addAll, List.foldlM_cons] at h
    obtain ⟨b₁, h₁, h₂⟩ := except_bind_eq_ok.1 h
    obtain ⟨names₁, rows₁⟩ := of_add_eq_ok h₁
    obtain ⟨names₂, rows₂⟩ := ih h₂
    exact ⟨names₂.trans names₁, by rw [rows₂, rows₁]; simp⟩

end Builder

/-- Building the table with some names and rows gives that table, and fails when there is none. -/
theorem ofRows_eq_ok {names : List String} {rows : List (List Int)} {t : Labels} :
    ofRows names rows = .ok t ↔ t.names = names ∧ t.rows = rows := by
  constructor
  · intro h
    obtain ⟨b, hb, h⟩ := except_bind_eq_ok.1 h
    obtain ⟨b', hb', h⟩ := except_bind_eq_ok.1 h
    cases h
    obtain ⟨namesB, rowsB⟩ := Builder.of_new_eq_ok hb
    obtain ⟨namesB', rowsB'⟩ := Builder.of_addAll_eq_ok hb'
    exact ⟨namesB'.trans namesB, by rw [Builder.finish_rows, rowsB', rowsB, List.nil_append]⟩
  · rintro ⟨rfl, rfl⟩
    obtain ⟨b, hb, namesB, rowsB⟩ := Builder.new_eq_ok t.names_valid
    obtain ⟨b', hb', namesB', rowsB'⟩ := Builder.addAll_eq_ok b t.rows
      (by rw [namesB]; exact t.width) (by rw [rowsB]; exact t.nodup)
    have ht : b'.finish = t := Labels.ext (namesB'.trans namesB)
      (by rw [Builder.finish_rows, rowsB', rowsB, List.nil_append])
    exact except_bind_eq_ok.2 ⟨b, hb, except_bind_eq_ok.2 ⟨b', hb', congrArg Except.ok ht⟩⟩

theorem exists_ofRows {names : List String} {rows : List (List Int)} (valid : NamesValid names)
    (width : ∀ row ∈ rows, row.length = names.length) (nodup : rows.Nodup) :
    ∃ t, ofRows names rows = .ok t :=
  ⟨⟨names, rows, valid, width, nodup⟩, ofRows_eq_ok.2 ⟨rfl, rfl⟩⟩

/-- The index of a table has its rows. -/
theorem contains_index {t : Labels} {row : List Int} :
    t.index.contains row = true ↔ row ∈ t.rows := by
  have general : ∀ (rows : List (List Int)) (map : Std.HashMap (List Int) Nat) (i : Nat),
      row ∈ (rows.foldl (fun found row => (found.1.insert row found.2, found.2 + 1)) (map, i)).1
        ↔ row ∈ rows ∨ row ∈ map := by
    intro rows
    induction rows with
    | nil => simp
    | cons r rows ih =>
      intro map i
      rw [List.foldl_cons, ih, Std.HashMap.mem_insert, List.mem_cons]
      by_cases hr : r = row
      · subst hr
        simp
      · simp [hr, Ne.symm hr]
  simpa [Labels.index] using general t.rows ∅ 0

/-! ### Rows that begin with those of a table -/

/-- A row begins with the labels of some row of the table. -/
def Roots (t : Labels) (row : List Int) : Prop := row.take t.size ∈ t.rows

section Roots

variable {t : Labels} {row : List Int}

theorem roots_append_of_mem (h : row ∈ t.rows) (more : List Int) : t.Roots (row ++ more) := by
  have start : (row ++ more).take t.size = row := List.take_left' (t.width row h)
  rw [Roots, start]
  exact h

theorem Roots.append (h : t.Roots row) (more : List Int) : t.Roots (row ++ more) := by
  have start : min t.size row.length = t.size := by
    rw [← List.length_take]
    exact t.width _ h
  have long : t.size ≤ row.length := by omega
  rw [Roots, List.take_append_of_le_length long]
  exact h

end Roots

end Labels

end Atomistic
