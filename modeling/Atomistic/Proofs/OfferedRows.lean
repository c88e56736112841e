import Atomistic.Proofs.LabelTables

/-!
# Offered rows

A table of labels is an ordered set of rows. Its builder may be offered any rows, of any length and
as often as one likes; it takes those of the right width that it does not have, and a row that it
refuses leaves no trace. The table then has the rows that were taken, in this order, however it is
read: row by row, on the way through all of them, as a slice of all labels, or by the position of a
row. What it stores besides the rows (all labels in one list, the positions of the rows) says
nothing else, so that two tables are equal when their names and their rows are.
-/

namespace Atomistic.Labels

/-! ### Reading a table -/

variable {t u : Labels} {row : List Int} {rows : List (List Int)} {i : Nat}

/-- The labels behind the first rows of a table are those of its other rows. -/
theorem drop_flatten {width : Nat} (widths : ∀ row ∈ rows, row.length = width) (n : Nat) :
    rows.flatten.drop (n * width) = (rows.drop n).flatten := by
  induction n generalizing rows with
  | zero => simp
  | succ n ih =>
    cases rows with
    | nil => simp
    | cons row rows =>
      obtain ⟨hrow, hrows⟩ := List.forall_mem_cons.1 widths
      rw [List.flatten_cons, List.drop_succ_cons, ← ih hrows, Nat.succ_mul, Nat.add_comm,
        ← List.drop_drop, ← hrow, List.drop_left]

/-- A cursor stands in front of some rows. -/
structure Cursor.At (c : Cursor) (rows : List (List Int)) : Prop where
  widths : ∀ row ∈ rows, row.length = c.size
  remaining_eq : c.remaining = rows.length
  values_eq : c.values = rows.flatten

theorem at_cursor (t : Labels) : t.cursor.At t.rows := ⟨t.width, rfl, rfl⟩

/-- The next row is the first of those, and the cursor behind it is in front of the others. -/
theorem Cursor.At.next {c : Cursor} (h : c.At (row :: rows)) :
    ∃ behind, c.next? = some (row, behind) ∧ behind.At rows := by
  obtain ⟨size, remaining, values, whole⟩ := c
  obtain ⟨widths, remaining_eq, values_eq⟩ := h
  obtain ⟨hrow, hrows⟩ := List.forall_mem_cons.1 widths
  dsimp only at remaining_eq values_eq hrow hrows
  subst remaining_eq values_eq hrow
  have first : (row :: rows).flatten.take row.length = row := by
    rw [List.flatten_cons, List.take_left]
  have others : (row :: rows).flatten.drop row.length = rows.flatten := by
    rw [List.flatten_cons, List.drop_left]
  exact ⟨_, congrArg some (Prod.ext first rfl), hrows, rfl, others⟩

theorem Cursor.At.next_nil {c : Cursor} (h : c.At []) : c.next? = none := by
  obtain ⟨size, remaining, values, whole⟩ := c
  have last := h.remaining_eq
  dsimp only [List.length_nil] at last
  subst last
  rfl

/-- After some steps, a cursor is in front of the rows that are left. -/
theorem Cursor.At.advance (steps : Nat) {c : Cursor} (h : c.At rows) :
    (c.advance steps).At (rows.drop steps) := by
  induction steps generalizing c rows with
  | zero => exact h
  | succ steps ih =>
    cases rows with
    | nil =>
      rw [Cursor.advance, h.next_nil, List.drop_nil]
      exact h
    | cons row rows =>
      obtain ⟨behind, next, hbehind⟩ := h.next
      rw [Cursor.advance, next, List.drop_succ_cons]
      exact ih hbehind

/-- Whichever way a table is read, it has these rows. -/
structure Reads (t : Labels) (rows : List (List Int)) : Prop where
  count_eq : t.count = rows.length
  row_eq : ∀ i (h : i < rows.length), t.row i = .ok rows[i]
  no_row : ∀ i, rows.length ≤ i → t.row i = .error (.panic (.rowOutOfBounds i rows.length))
  remaining_eq : ∀ steps, (t.cursor.advance steps).remaining = rows.length - steps
  next_eq : ∀ steps, (t.cursor.advance steps).next?.map Prod.fst = rows[steps]?
  length_flat : t.flat.length = t.count * t.size
  slice_eq : ∀ i (h : i < rows.length), (i + 1) * t.size ≤ t.flat.length ∧
    t.flat.extract (i * t.size) ((i + 1) * t.size) = rows[i]
  position_eq : ∀ i (h : i < rows.length), t.position rows[i] = some i ∧ t.contains rows[i] = true
  no_position : ∀ row ∉ rows, t.position row = none ∧ t.contains row = false

theorem reads_rows (t : Labels) : t.Reads t.rows := by
  have left (steps : Nat) := (at_cursor t).advance steps
  constructor
  case count_eq => rfl
  case row_eq =>
    intro i h
    rw [Labels.row, List.getElem?_eq_getElem h]
  case no_row =>
    intro i h
    rw [Labels.row, List.getElem?_eq_none h]
    rfl
  case remaining_eq =>
    intro steps
    rw [(left steps).remaining_eq, List.length_drop]
  case next_eq =>
    intro steps
    rcases Nat.lt_or_ge steps t.rows.length with h | h
    · have place := left steps
      rw [List.drop_eq_getElem_cons h] at place
      obtain ⟨behind, next, -⟩ := place.next
      rw [next, List.getElem?_eq_getElem h, Option.map_some]
    · have place := left steps
      rw [List.drop_eq_nil_of_le h] at place
      rw [place.next_nil, List.getElem?_eq_none h, Option.map_none]
  case length_flat => exact t.length_flat
  case slice_eq =>
    intro i h
    constructor
    · rw [t.length_flat]
      exact Nat.mul_le_mul_right _ h
    · have width : t.rows[i].length = t.size := t.width _ (List.getElem_mem h)
      have long : (i + 1) * t.size - i * t.size = t.rows[i].length := by
        rw [Nat.succ_mul, Nat.add_sub_cancel_left, width]
      rw [List.extract_eq_take_drop, flat, size, drop_flatten t.width, List.drop_eq_getElem_cons h,
        List.flatten_cons]
      exact (congrArg (List.take · _) long).trans List.take_left
  case position_eq =>
    intro i h
    have found : t.position t.rows[i] = some i := t.position_getElem h
    exact ⟨found, by rw [contains, found, Option.isSome_some]⟩
  case no_position =>
    intro row h
    have missing : t.position row = none := position_eq_none.2 h
    exact ⟨missing, by rw [contains, missing, Option.isSome_none]⟩

theorem eq_iff : t = u ↔ t.names = u.names ∧ t.rows = u.rows :=
  ⟨fun h => h ▸ ⟨rfl, rfl⟩, fun ⟨names, rows⟩ => Labels.ext names rows⟩

/-- What is stored of two tables is the same: the names, the labels and the positions of rows. -/
structure SameStored (t u : Labels) : Prop where
  names_eq : t.names = u.names
  flat_eq : t.flat = u.flat
  position_eq : ∀ row, t.position row = u.position row

theorem eq_iff_sameStored : t = u ↔ SameStored t u := by
  constructor
  · rintro rfl
    exact ⟨rfl, rfl, fun _ => rfl⟩
  · intro h
    refine eq_iff.2 ⟨h.names_eq, List.ext_getElem? fun i => Option.ext fun row => ?_⟩
    rw [← position_eq_some_iff, ← position_eq_some_iff, h.position_eq]

/-! ### Offering rows to a builder -/

namespace Builder

/-- The position of each row is stored once. -/
theorem size_positions (b : Builder) : b.positions.size = b.count := by
  have same : b.positions.keys.Perm b.rows.toList := by
    refine (List.perm_ext_iff_of_nodup Std.HashMap.nodup_keys b.nodup).2 fun row => ?_
    rw [Std.HashMap.mem_keys, Std.HashMap.mem_iff_isSome_getElem?, b.agree, List.isSome_idxOf?]
  rw [← Std.HashMap.length_keys, same.length_eq, Array.length_toList, count]

/-- What comes of offering a row to a builder. -/
inductive Offered (b : Builder) (row : List Int) : Except Error Unit × Builder → Prop
  | taken {more : Builder} (width : row.length = b.names.length) (fresh : row ∉ b.rows.toList)
      (added : b.add row = .ok more) : Offered b row (.ok (), more)
  | misfit (width : row.length ≠ b.names.length) :
      Offered b row (.error (.parameter (.rowSize row.length b.names.length)), b)
  | known {i : Nat} (width : row.length = b.names.length) (there : b.rows.toList[i]? = some row) :
      Offered b row (.error (.parameter (.rowRepeated row i)), b)

theorem offered_offer (b : Builder) (row : List Int) : Offered b row (b.offer row) := by
  by_cases width : row.length = b.names.length
  · by_cases fresh : row ∈ b.rows.toList
    · obtain ⟨i, found⟩ := Option.isSome_iff_exists.1 (List.isSome_idxOf?.2 fresh)
      have refused : b.add row = .error (.parameter (.rowRepeated row i)) := by
        unfold add
        rw [dif_pos width]
        split
        · next existing h =>
          rw [b.agree, found] at h
          cases h
          rfl
        · next h => rw [b.agree, found] at h; cases h
      rw [offer, refused]
      exact .known width ((idxOf?_eq_some_iff b.nodup).1 found)
    · obtain ⟨more, added, -⟩ := add_eq_ok width fresh
      rw [offer, added]
      exact .taken width fresh added
  · have refused : b.add row = .error (.parameter (.rowSize row.length b.names.length)) :=
      dif_neg width
    rw [offer, refused]
    exact .misfit width

/-- A row is taken when it has one label per variable and is not there yet. -/
theorem offer_eq_ok_iff {b : Builder} {row : List Int} :
    (b.offer row).1 = .ok () ↔ row.length = b.names.length ∧ row ∉ b.rows.toList := by
  have step := b.offered_offer row
  generalize b.offer row = outcome at step ⊢
  cases step with
  | taken width fresh added => simp [width, fresh]
  | misfit width => simp [width]
  | known width there => simp [List.mem_of_getElem? there]

/-- The error for a row says what is wrong with it, and the builder stays as it is. -/
theorem of_offer_eq_error {b : Builder} {row : List Int} {e : Error}
    (h : (b.offer row).1 = .error e) : (b.offer row).2 = b ∧
      ((row.length ≠ b.names.length ∧ e = .parameter (.rowSize row.length b.names.length)) ∨
        ∃ k, b.rows.toList[k]? = some row ∧ e = .parameter (.rowRepeated row k)) := by
  have step := b.offered_offer row
  generalize b.offer row = outcome at step h ⊢
  cases step with
  | taken width fresh added => cases h
  | misfit width =>
    cases h
    exact ⟨rfl, .inl ⟨width, rfl⟩⟩
  | known width there =>
    cases h
    exact ⟨rfl, .inr ⟨_, there, rfl⟩⟩

/-- The rows that were taken, by the answers to all that were offered. -/
def taken (offered : List (List Int)) (answers : List (Except Error Unit)) : List (List Int) :=
  ((offered.zip answers).filter fun (_, answer) => answer.isOk).map Prod.fst

theorem offerAll_cons (b : Builder) (row : List Int) (rows : List (List Int)) :
    b.offerAll (row :: rows) = ((b.offer row).1 :: ((b.offer row).2.offerAll rows).1,
      ((b.offer row).2.offerAll rows).2) := rfl

theorem offerAll_append (b : Builder) (before after : List (List Int)) :
    b.offerAll (before ++ after)
      = ((b.offerAll before).1 ++ ((b.offerAll before).2.offerAll after).1,
        ((b.offerAll before).2.offerAll after).2) := by
  induction before generalizing b with
  | nil => rfl
  | cons row before ih => rw [List.cons_append, offerAll_cons, offerAll_cons, ih]; rfl

theorem length_answers (b : Builder) (offered : List (List Int)) :
    (b.offerAll offered).1.length = offered.length := by
  induction offered generalizing b with
  | nil => rfl
  | cons row rows ih => rw [offerAll_cons, List.length_cons, List.length_cons, ih]

/-- The builder is the one to which only the rows that it takes were added. -/
theorem addAll_taken (b : Builder) (offered : List (List Int)) :
    b.addAll (taken offered (b.offerAll offered).1) = .ok (b.offerAll offered).2 := by
  induction offered generalizing b with
  | nil => rfl
  | cons row rows ih =>
    rw [offerAll_cons]
    have step := b.offered_offer row
    generalize b.offer row = outcome at step ⊢
    cases step with
    | @taken after width fresh added =>
      rw [addAll]
      refine (List.foldlM_cons ..).trans ?_
      rw [added]
      exact ih after
    | misfit width => exact ih b
    | known width there => exact ih b

theorem names_offerAll (b : Builder) (offered : List (List Int)) :
    (b.offerAll offered).2.names = b.names := (of_addAll_eq_ok (b.addAll_taken offered)).1

theorem rows_offerAll (b : Builder) (offered : List (List Int)) :
    (b.offerAll offered).2.rows.toList = b.rows.toList ++ taken offered (b.offerAll offered).1 :=
  (of_addAll_eq_ok (b.addAll_taken offered)).2

/-- A builder takes rows of the right width that it does not have. -/
def wants (b : Builder) (row : List Int) : Bool :=
  row.length == b.names.length && !b.rows.toList.contains row

/-- Of the rows that a builder wants when the first is offered, it takes each of them once. -/
theorem taken_eq (b : Builder) (offered : List (List Int)) :
    taken offered (b.offerAll offered).1 = (offered.filter b.wants).eraseDups := by
  induction offered generalizing b with
  | nil => rfl
  | cons row rows ih =>
    rw [offerAll_cons]
    have step := b.offered_offer row
    generalize b.offer row = outcome at step ⊢
    cases step with
    | @taken after width fresh added =>
      obtain ⟨names_eq, rows_eq⟩ := of_add_eq_ok added
      have wanted : b.wants row = true := by simp [wants, width, fresh]
      -- afterwards the builder wants the same rows, except for this one
      have others : after.wants = fun other => !other == row && b.wants other := by
        funext other
        simp only [wants, names_eq, rows_eq]
        grind
      rw [List.filter_cons_of_pos wanted, List.eraseDups_cons, List.filter_filter, ← others]
      exact congrArg (row :: ·) (ih after)
    | misfit width =>
      have unwanted : ¬ b.wants row = true := by simp [wants, width]
      rw [List.filter_cons_of_neg unwanted]
      exact ih b
    | known width there =>
      have unwanted : ¬ b.wants row = true := by simp [wants, List.mem_of_getElem? there]
      rw [List.filter_cons_of_neg unwanted]
      exact ih b

/-- The answer to a row, and the builder after it, are those of the rows in front of it. -/
theorem offerAll_of_getElem? (b : Builder) {offered : List (List Int)} {i : Nat} {row : List Int}
    (there : offered[i]? = some row) :
    (b.offerAll offered).1[i]? = some ((b.offerAll (offered.take i)).2.offer row).1 ∧
      (b.offerAll offered).1.take i = (b.offerAll (offered.take i)).1 ∧
      (b.offerAll (offered.take (i + 1))).2 = ((b.offerAll (offered.take i)).2.offer row).2 := by
  obtain ⟨h, same⟩ := List.getElem?_eq_some_iff.1 there
  have whole : offered = offered.take i ++ row :: offered.drop (i + 1) := by
    rw [← same, List.getElem_cons_drop, List.take_append_drop]
  have front : (b.offerAll (offered.take i)).1.length = i := by
    rw [length_answers, List.length_take, Nat.min_eq_left (Nat.le_of_lt h)]
  have answers : (b.offerAll offered).1 = (b.offerAll (offered.take i)).1
      ++ ((b.offerAll (offered.take i)).2.offerAll (row :: offered.drop (i + 1))).1 := by
    conv_lhs => rw [whole, offerAll_append]
  refine ⟨?_, ?_, ?_⟩
  · rw [answers, List.getElem?_append_right (Nat.le_of_eq front), front, Nat.sub_self,
      offerAll_cons]
    rfl
  · rw [answers, List.take_left' front]
  · rw [List.take_add_one, there, Option.toList_some, offerAll_append]
    rfl

/-- What a builder of some names makes of the rows that it is offered, and what the table has in the
end. -/
structure Takes (names : List String) (b : Builder) (offered : List (List Int))
    (answers : List (Except Error Unit)) (t : Labels) : Prop where
  answered : answers.length = offered.length
  taken_iff : ∀ {i row}, offered[i]? = some row → (answers[i]? = some (.ok ()) ↔
    row.length = names.length ∧ row ∉ taken (offered.take i) (answers.take i))
  refused : ∀ {i row e}, offered[i]? = some row → answers[i]? = some (.error e) →
    (b.offerAll (offered.take (i + 1))).2 = (b.offerAll (offered.take i)).2 ∧
      ((row.length ≠ names.length ∧ e = .parameter (.rowSize row.length names.length)) ∨
        ∃ k, (taken (offered.take i) (answers.take i))[k]? = some row ∧
          e = .parameter (.rowRepeated row k))
  leaves_no_trace : b.addAll (taken offered answers) = .ok (b.offerAll offered).2
  distinct : taken offered answers
    = (offered.filter fun row => row.length == names.length).eraseDups
  names_eq : t.names = names
  reads : t.Reads (taken offered answers)
  stored : (b.offerAll offered).2.positions.size = t.count ∧
    ∀ row, (b.offerAll offered).2.positions[row]? = t.position row

/-- The table of a new builder has the rows that it took. -/
theorem finish_offerAll {names : List String} {b : Builder} (h : new names = .ok b)
    (offered : List (List Int)) : (b.offerAll offered).2.finish.names = names ∧
      (b.offerAll offered).2.finish.rows = taken offered (b.offerAll offered).1 := by
  obtain ⟨names_eq, none⟩ := of_new_eq_ok h
  refine ⟨(b.names_offerAll offered).trans names_eq, ?_⟩
  rw [finish_rows, rows_offerAll, none, List.nil_append]

/-- Whatever rows are offered to a new builder, its table is the ordered set of those that it takes.
It equals the table of another builder when both have the same names and took the same rows, and
then all that is stored of them is the same. -/
theorem takes_of_new {names : List String} {b : Builder} (h : new names = .ok b)
    (offered : List (List Int)) :
    Takes names b offered (b.offerAll offered).1 (b.offerAll offered).2.finish ∧
      ∀ {names' : List String} {b' : Builder} (offered' : List (List Int)), new names' = .ok b' →
        (((b.offerAll offered).2.finish == (b'.offerAll offered').2.finish) = true ↔
          names = names' ∧
            taken offered (b.offerAll offered).1 = taken offered' (b'.offerAll offered').1) ∧
        (((b.offerAll offered).2.finish == (b'.offerAll offered').2.finish) = true ↔
          SameStored (b.offerAll offered).2.finish (b'.offerAll offered').2.finish) := by
  obtain ⟨names_eq, rows_eq⟩ := finish_offerAll h offered
  obtain ⟨own, none⟩ := of_new_eq_ok h
  refine ⟨?_, fun offered' h' => ?_⟩
  · constructor
    case answered => exact b.length_answers offered
    case taken_iff =>
      intro i row there
      obtain ⟨names_i, rows_i⟩ := finish_offerAll h (offered.take i)
      obtain ⟨answer, front, -⟩ := b.offerAll_of_getElem? there
      rw [answer, front, ← rows_i, ← names_i, Option.some_inj]
      exact offer_eq_ok_iff
    case refused =>
      intro i row e there failed
      obtain ⟨names_i, rows_i⟩ := finish_offerAll h (offered.take i)
      obtain ⟨answer, front, next⟩ := b.offerAll_of_getElem? there
      rw [answer, Option.some_inj] at failed
      rw [front, next, ← rows_i, ← names_i]
      exact of_offer_eq_error failed
    case leaves_no_trace => exact b.addAll_taken offered
    case distinct =>
      rw [taken_eq]
      congr 2
      funext row
      rw [wants, none, own]
      simp
    case names_eq => exact names_eq
    case reads =>
      rw [← rows_eq]
      exact reads_rows _
    case stored => exact ⟨size_positions _, (b.offerAll offered).2.agree⟩
  · obtain ⟨names_eq', rows_eq'⟩ := finish_offerAll h' offered'
    constructor
    · rw [beq_iff_eq, eq_iff, names_eq, names_eq', rows_eq, rows_eq']
    · rw [beq_iff_eq, eq_iff_sameStored]

/-- Of four rows that are offered to a new builder for two variables, it takes two: one is too short
and one is there already. -/
theorem takes_of_new_pairs : ∃ b, new ["first", "second"] = .ok b ∧
    taken [[1, 2], [3], [1, 2], [2, 1]] (b.offerAll [[1, 2], [3], [1, 2], [2, 1]]).1
      = [[1, 2], [2, 1]] ∧
    Takes ["first", "second"] b [[1, 2], [3], [1, 2], [2, 1]]
      (b.offerAll [[1, 2], [3], [1, 2], [2, 1]]).1
      (b.offerAll [[1, 2], [3], [1, 2], [2, 1]]).2.finish := by
  have valid : NamesValid ["first", "second"] := ⟨by decide, by decide⟩
  obtain ⟨b, h, -⟩ := new_eq_ok valid
  obtain ⟨takes, -⟩ := takes_of_new h [[1, 2], [3], [1, 2], [2, 1]]
  refine ⟨b, h, ?_, takes⟩
  rw [takes.distinct]
  decide

end Builder

end Atomistic.Labels
