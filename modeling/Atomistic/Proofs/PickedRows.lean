import Atomistic.Descriptor
import Atomistic.Proofs.LabelTables
import Atomistic.Selection

/-!
# Picked rows and columns

Some elements of a list are picked by their positions, in any order. What is computed element by
element for a list is computed for the picked ones too, with the results that are picked at the same
positions. Tables of labels and arrays of values are picked from in the same way, the latter by rows
and by columns; picking from a table of labels is what a selection does, by positions or by labels.
-/

namespace Atomistic

variable {β γ α : Type}

/-- The second list has the elements of the first one that are at the given positions. -/
def Picks (positions : List Nat) (xs ys : List β) : Prop :=
  List.Forall₂ (fun i y => xs[i]? = some y) positions ys

namespace Picks

variable {positions : List Nat} {xs ys : List β}

theorem getElem? (h : Picks positions xs ys) {i r : Nat} (hr : positions[i]? = some r) :
    ∃ y, xs[r]? = some y ∧ ys[i]? = some y := by
  induction h generalizing i with
  | nil => cases hr
  | @cons p y positions ys hy _ ih =>
    cases i with
    | zero =>
      cases hr
      exact ⟨y, hy, rfl⟩
    | succ i => exact ih hr

theorem exists_of_mem (h : Picks positions xs ys) {y : β} (hy : y ∈ ys) :
    ∃ i ∈ positions, xs[i]? = some y := by
  induction h with
  | nil => cases hy
  | cons first _ ih =>
    rcases List.mem_cons.1 hy with rfl | hy
    · exact ⟨_, List.mem_cons_self, first⟩
    · obtain ⟨i, hi, found⟩ := ih hy
      exact ⟨i, List.mem_cons_of_mem _ hi, found⟩

theorem subset (h : Picks positions xs ys) : ys ⊆ xs := fun _ hy =>
  let ⟨_, _, found⟩ := h.exists_of_mem hy
  List.mem_of_getElem? found

/-- Distinct elements at distinct positions are picked. -/
theorem nodup (h : Picks positions xs ys) (distinct : positions.Nodup) (hxs : xs.Nodup) :
    ys.Nodup := by
  induction h with
  | nil => exact .nil
  | @cons i y positions ys first rest ih =>
    rw [List.nodup_cons] at distinct ⊢
    refine ⟨fun again => ?_, ih distinct.2⟩
    obtain ⟨j, hj, found⟩ := exists_of_mem rest again
    have there := (List.getElem?_eq_some_iff.1 first).1
    obtain rfl := (List.getElem?_inj there hxs).1 (first.trans found.symm)
    exact distinct.1 hj

/-- What is computed for each element is computed for those that are picked. -/
theorem mapM {f : β → Except Error γ} {zs : List γ} (h : Picks positions xs ys)
    (hf : xs.mapM f = .ok zs) : ∃ ws, ys.mapM f = .ok ws ∧ Picks positions zs ws := by
  have each := except_mapM_eq_ok.1 hf
  induction h with
  | nil => exact ⟨[], rfl, .nil⟩
  | @cons i y positions ys first _ ih =>
    obtain ⟨ws, hws, picked⟩ := ih
    obtain ⟨there, rfl⟩ := List.getElem?_eq_some_iff.1 first
    have there' : i < zs.length := each.length_eq ▸ there
    refine ⟨zs[i] :: ws, ?_, .cons (List.getElem?_eq_getElem there') picked⟩
    rw [except_mapM_eq_ok] at hws ⊢
    exact .cons (each.get there there') hws

theorem map (f : β → γ) (h : Picks positions xs ys) : Picks positions (xs.map f) (ys.map f) := by
  rw [Picks, List.forall₂_map_right_iff]
  exact h.imp fun i y hy => by rw [List.getElem?_map, hy]; rfl

end Picks

theorem exists_picks {positions : List Nat} {xs : List β}
    (within : ∀ i ∈ positions, i < xs.length) : ∃ ys, Picks positions xs ys := by
  induction positions with
  | nil => exact ⟨[], .nil⟩
  | cons i positions ih =>
    rw [List.forall_mem_cons] at within
    obtain ⟨ys, hys⟩ := ih within.2
    exact ⟨xs[i] :: ys, .cons (List.getElem?_eq_getElem within.1) hys⟩

/-- The elements with a property are picked, in the order that they have. -/
theorem picks_filter (p : β → Bool) (xs : List β) : Picks (xs.findIdxs p) xs (xs.filter p) := by
  have length : (xs.findIdxs p).length = (xs.filter p).length := by
    rw [List.length_findIdxs, List.countP_eq_length_filter]
  refine List.forall₂_iff_get.2 ⟨length, fun i hi hi' => ?_⟩
  rw [List.get_eq_getElem, List.get_eq_getElem, List.getElem_filter_eq_getElem_getElem_findIdxs]
  exact List.getElem?_eq_getElem _

/-- The second lists are some of the first ones, with some of their elements. -/
def PicksBoth (rows columns : List Nat) (lists part : List (List β)) : Prop :=
  List.Forall₂ (fun r picked => ∃ row, lists[r]? = some row ∧ Picks columns row picked) rows part

/-- Lists that are computed for some elements are picked, if there is a way to compute those of
their elements that are picked. -/
theorem Picks.mapM_both {rows columns : List Nat} {xs ys : List β}
    {f f' : β → Except Error (List γ)} {lists : List (List γ)} (h : Picks rows xs ys)
    (hf : xs.mapM f = .ok lists)
    (part : ∀ y ∈ ys, ∀ row, f y = .ok row →
      ∃ picked, f' y = .ok picked ∧ Picks columns row picked) :
    ∃ lists', ys.mapM f' = .ok lists' ∧ PicksBoth rows columns lists lists' := by
  obtain ⟨chosen, hchosen, picked⟩ := h.mapM hf
  rw [except_mapM_eq_ok] at hchosen
  clear h hf
  induction picked generalizing ys with
  | nil =>
    cases hchosen
    exact ⟨[], rfl, .nil⟩
  | @cons r row rows chosen first _ ih =>
    obtain _ | ⟨hy, hrest⟩ := hchosen
    rw [List.forall_mem_cons] at part
    obtain ⟨picked, hpicked, columns⟩ := part.1 row hy
    obtain ⟨lists', hlists', both⟩ := ih part.2 hrest
    refine ⟨picked :: lists', ?_, .cons ⟨row, first, columns⟩ both⟩
    rw [except_mapM_eq_ok] at hlists' ⊢
    exact .cons hpicked hlists'

/-! ### Tables of labels -/

/-- The second table has the rows of the first one that are at the given positions. -/
structure Labels.Picks (positions : List Nat) (t part : Labels) : Prop where
  names : part.names = t.names
  rows : Atomistic.Picks positions t.rows part.rows

theorem Labels.exists_picks {t : Labels} {positions : List Nat} (distinct : positions.Nodup)
    (within : ∀ i ∈ positions, i < t.count) : ∃ part, t.Picks positions part := by
  obtain ⟨rows, hrows⟩ := Atomistic.exists_picks within
  have width : ∀ row ∈ rows, row.length = t.names.length := fun row hrow =>
    t.width row (hrows.subset hrow)
  exact ⟨⟨t.names, rows, t.names_valid, width, hrows.nodup distinct t.nodup⟩, rfl, hrows⟩

namespace Selection

theorem checkPositions_of_distinct {axis : String} {count : Nat} :
    ∀ {positions : List Nat} {seen : Std.HashSet Nat}, positions.Nodup →
      (∀ i ∈ positions, i < count) → (∀ i ∈ positions, i ∉ seen) →
      checkPositions axis count seen positions = .ok ()
  | [], seen, _, _, _ => rfl
  | i :: positions, seen, distinct, within, fresh => by
    rw [List.nodup_cons] at distinct
    rw [List.forall_mem_cons] at within fresh
    have notSeen : seen.contains i = false := by
      rw [← Bool.not_eq_true, Std.HashSet.contains_iff_mem]
      exact fresh.1
    rw [checkPositions, if_neg (by omega), notSeen]
    refine checkPositions_of_distinct distinct.2 within.2 fun j hj => ?_
    rw [Std.HashSet.mem_insert, not_or, beq_iff_eq]
    exact ⟨fun here => distinct.1 (here ▸ hj), fresh.2 j hj⟩

variable {axis : String} {t part : Labels} {positions : List Nat}

/-- Rows are selected by their positions. -/
theorem select_rows (distinct : positions.Nodup) (within : ∀ i ∈ positions, i < t.count)
    (h : t.Picks positions part) : (rows positions).select axis t = .ok part := by
  have each : positions.mapM (elementAt t.rows.toArray) = .ok part.rows := by
    refine except_mapM_eq_ok.2 (h.rows.imp fun i row hrow => ?_)
    rw [elementAt, List.getElem?_toArray, hrow]
  refine except_bind_eq_ok.2 ⟨(), ?_, except_bind_eq_ok.2 ⟨_, each, ?_⟩⟩
  · exact checkPositions_of_distinct distinct within fun _ _ => Std.HashSet.not_mem_empty
  · exact Labels.ofRows_eq_ok.2 ⟨h.names, rfl⟩

/-- Rows are selected by their labels. -/
theorem select_values (names : part.names = t.names) (sub : part.rows ⊆ t.rows) :
    (values part).select axis t = .ok part := by
  have known : part.rows.find? (fun row => !t.index.contains row) = none := by
    rw [List.find?_eq_none]
    intro row hrow
    rw [Labels.contains_index.2 (sub hrow)]
    exact Bool.false_ne_true
  rw [select, atLabels, if_neg (not_not.2 names)]
  dsimp only
  rw [known]

/-- What can be selected of a table: rows that are there, each once, or labels that it has. -/
def Valid (s : Selection) (t : Labels) : Prop :=
  match s with
  | all => True
  | rows positions => positions.Nodup ∧ ∀ i ∈ positions, i < t.count
  | values labels => labels.names = t.names ∧ labels.rows ⊆ t.rows

/-- Positions are refused for being out of bounds or for being repeated. -/
theorem checkPositions_cases {axis : String} {count : Nat} :
    ∀ (positions : List Nat) (seen : Std.HashSet Nat),
      (positions.Nodup ∧ (∀ i ∈ positions, i < count) ∧ ∀ i ∈ positions, i ∉ seen) ∨
        ∃ cause, checkPositions axis count seen positions = .error (.parameter cause)
  | [], seen => .inl ⟨.nil, nofun, nofun⟩
  | i :: positions, seen => by
    rw [checkPositions]
    split
    · exact .inr ⟨_, rfl⟩
    · split
      · exact .inr ⟨_, rfl⟩
      · next within fresh =>
        rw [Std.HashSet.contains_iff_mem] at fresh
        refine (checkPositions_cases positions (seen.insert i)).imp_left ?_
        rintro ⟨distinct, rest, unseen⟩
        simp only [Std.HashSet.mem_insert, beq_iff_eq, not_or] at unseen
        refine ⟨List.nodup_cons.2 ⟨fun again => (unseen i again).1 rfl, distinct⟩, ?_, ?_⟩
        · exact List.forall_mem_cons.2 ⟨by omega, rest⟩
        · exact List.forall_mem_cons.2 ⟨fresh, fun j hj => (unseen j hj).2⟩

/-- A valid selection gives some rows of the table. -/
theorem select_of_valid {s : Selection} (h : s.Valid t) (axis : String) :
    ∃ part, s.select axis t = .ok part ∧ part.names = t.names ∧ part.rows ⊆ t.rows := by
  cases s with
  | all => exact ⟨t, rfl, rfl, fun _ hrow => hrow⟩
  | rows positions =>
    obtain ⟨part, hpart⟩ := Labels.exists_picks h.1 h.2
    exact ⟨part, select_rows h.1 h.2 hpart, hpart.names, hpart.rows.subset⟩
  | values labels => exact ⟨labels, select_values h.1 h.2, h.1, h.2⟩

/-- Any other selection is a bad parameter. -/
theorem select_of_not_valid {s : Selection} (h : ¬s.Valid t) (axis : String) :
    ∃ cause, s.select axis t = .error (.parameter cause) := by
  cases s with
  | all => exact absurd trivial h
  | rows positions =>
    rcases checkPositions_cases positions ∅ with ⟨distinct, within, -⟩ | ⟨cause, refused⟩
    · exact absurd ⟨distinct, within⟩ h
    · exact ⟨cause, except_bind_eq_error.2 (.inl refused)⟩
  | values labels =>
    rw [select, atLabels]
    split
    · exact ⟨_, rfl⟩
    · next names =>
      dsimp only
      split
      · exact ⟨_, rfl⟩
      · next unknown =>
        refine absurd ⟨not_not.1 names, fun row hrow => ?_⟩ h
        rw [List.find?_eq_none] at unknown
        rw [← Labels.contains_index]
        simpa using unknown row hrow

end Selection

/-! ### Arrays of values -/

namespace Dense

/-- The second array has the values of the first one that are in the given rows and columns. -/
structure Picks (rows columns : List Nat) (d part : Dense α) : Prop where
  row_count : part.rows = rows.length
  column_count : part.columns = columns.length
  entries : ∀ (i j r c : Nat), rows[i]? = some r → columns[j]? = some c →
    ∃ x, d.get? r c = some x ∧ part.get? i j = some x

variable [Scalar α]

theorem get?_write_zeros {lists : List (List α)} {n m i j : Nat} {row : List α} {x : α} (hi : i < n)
    (hj : j < m) (hrow : lists[i]? = some row) (hx : row[j]? = some x) :
    ((zeros n m).write lists).get? i j = some x := by
  rw [get?_write, zeros, get?_ofFn, if_pos ⟨hi, hj⟩, hrow]
  simp [hx]

/-- Values picked from lists are those picked from the array that the lists fill. -/
theorem picks_write {rows columns : List Nat} {lists part : List (List α)} {n m n' m' : Nat}
    (hn : ∀ r ∈ rows, r < n) (hm : ∀ c ∈ columns, c < m) (hn' : rows.length = n')
    (hm' : columns.length = m') (h : PicksBoth rows columns lists part) :
    ((zeros n m).write lists).Picks rows columns ((zeros n' m').write part) where
  row_count := hn'.symm
  column_count := hm'.symm
  entries i j r c hr hc := by
    obtain ⟨there, rfl⟩ := List.getElem?_eq_some_iff.1 hr
    obtain ⟨there', -⟩ := List.getElem?_eq_some_iff.1 hc
    have hi : i < part.length := h.length_eq ▸ there
    obtain ⟨row, hrow, picked⟩ := h.get there hi
    obtain ⟨x, hx, hx'⟩ := picked.getElem? hc
    refine ⟨x, ?_, ?_⟩
    · exact get?_write_zeros (hn _ (List.mem_of_getElem? hr)) (hm _ (List.mem_of_getElem? hc))
        hrow hx
    · exact get?_write_zeros (hn' ▸ there) (hm' ▸ there') (List.getElem?_eq_getElem hi) hx'

end Dense

end Atomistic
