import Atomistic.Descriptor.Partition
import Atomistic.Proofs.LabelTables
import Atomistic.Proofs.Rearrangement
import Atomistic.Proofs.Traced

/-!
# Parted variables

A partition of `n` variables gives each of them to one of its two sides, once: its positions are a
permutation of the first `n` numbers. So a row is known from its two parts, the parts hold the
entries of the row and nothing else, and parting commutes with reading a row from an assignment.
-/

namespace Atomistic.Partition

/-! ### Picking entries -/

section Pick

variable {β γ : Type}

theorem pick_map (f : β → γ) (positions : List Nat) (row : List β) :
    pick positions (row.map f) = (pick positions row).map f := by
  simp only [pick, List.getElem?_map, List.map_filterMap]

theorem pick_cons {i : Nat} {row : List β} (h : i < row.length) (positions : List Nat) :
    pick (i :: positions) row = row[i] :: pick positions row :=
  List.filterMap_cons_some (List.getElem?_eq_getElem h)

theorem length_pick : ∀ {positions : List Nat} {row : List β}, (∀ i ∈ positions, i < row.length) →
    (pick positions row).length = positions.length
  | [], _, _ => rfl
  | i :: positions, row, h => by
    rw [pick_cons (h i List.mem_cons_self), List.length_cons, List.length_cons,
      length_pick fun j hj => h j (List.mem_cons_of_mem _ hj)]

theorem pick_range (row : List β) : pick (List.range row.length) row = row := by
  have whole : ∀ n, n ≤ row.length → pick (List.range n) row = row.take n := by
    intro n hn
    induction n with
    | zero => rfl
    | succ n ih =>
      rw [List.range_succ, List.take_add_one, ← ih (by omega)]
      simp [pick, List.getElem?_eq_getElem hn]
  rw [whole _ (Nat.le_refl _), List.take_length]

/-- Equal picks come from rows that are equal at the picked positions. -/
theorem getElem?_eq_of_pick : ∀ {positions : List Nat} {row other : List β},
    (∀ i ∈ positions, i < row.length) → (∀ i ∈ positions, i < other.length) →
    pick positions row = pick positions other → ∀ i ∈ positions, row[i]? = other[i]?
  | [], _, _, _, _, _, _, hi => absurd hi List.not_mem_nil
  | j :: positions, row, other, hrow, hother, h, i, hi => by
    have hj := hrow j List.mem_cons_self
    have hj' := hother j List.mem_cons_self
    rw [pick_cons hj, pick_cons hj', List.cons.injEq] at h
    rcases List.mem_cons.1 hi with rfl | hi
    · rw [List.getElem?_eq_getElem hj, List.getElem?_eq_getElem hj', h.1]
    · exact getElem?_eq_of_pick (fun k hk => hrow k (List.mem_cons_of_mem _ hk))
        (fun k hk => hother k (List.mem_cons_of_mem _ hk)) h.2 i hi

end Pick

/-! ### Partitions of all variables -/

/-- Each of the first `n` positions is on one side of the partition, once. -/
def Parts (p : Partition) (n : Nat) : Prop := (p.moved ++ p.kept).Perm (List.range n)

namespace Parts

variable {p : Partition} {n : Nat} {β : Type}

theorem moved_lt (h : p.Parts n) : ∀ i ∈ p.moved, i < n := fun _ hi =>
  List.mem_range.1 (h.mem_iff.1 (List.mem_append_left _ hi))

theorem kept_lt (h : p.Parts n) : ∀ i ∈ p.kept, i < n := fun _ hi =>
  List.mem_range.1 (h.mem_iff.1 (List.mem_append_right _ hi))

/-- The two parts of a row hold its entries. -/
theorem perm (h : p.Parts n) (row : List β) (width : row.length = n) :
    (p.movedOf row ++ p.keptOf row).Perm row := by
  subst width
  have picked := h.filterMap fun i => row[i]?
  rw [List.filterMap_append] at picked
  exact picked.trans (.of_eq (pick_range row))

theorem movedOf_subset (h : p.Parts n) {row : List β} (width : row.length = n) :
    p.movedOf row ⊆ row := fun _ hb => (h.perm row width).subset (List.mem_append_left _ hb)

theorem keptOf_subset (h : p.Parts n) {row : List β} (width : row.length = n) :
    p.keptOf row ⊆ row := fun _ hb => (h.perm row width).subset (List.mem_append_right _ hb)

/-- Distinct entries are on one side each. -/
theorem nodup_parts (h : p.Parts n) {row : List β} (width : row.length = n) (distinct : row.Nodup) :
    (p.movedOf row).Nodup ∧ (p.keptOf row).Nodup ∧ (p.movedOf row).Disjoint (p.keptOf row) :=
  List.nodup_append'.1 ((h.perm row width).nodup_iff.2 distinct)

theorem length_movedOf (h : p.Parts n) {row : List β} (width : row.length = n) :
    (p.movedOf row).length = p.moved.length :=
  length_pick fun i hi => width ▸ h.moved_lt i hi

theorem length_keptOf (h : p.Parts n) {row : List β} (width : row.length = n) :
    (p.keptOf row).length = p.kept.length :=
  length_pick fun i hi => width ▸ h.kept_lt i hi

/-- A row is known from its two parts. -/
theorem row_ext (h : p.Parts n) {row other : List β} (hrow : row.length = n)
    (hother : other.length = n) (moved : p.movedOf row = p.movedOf other)
    (kept : p.keptOf row = p.keptOf other) : row = other := by
  refine List.ext_getElem? fun i => ?_
  by_cases hi : i < n
  · rcases List.mem_append.1 (h.mem_iff.2 (List.mem_range.2 hi)) with hi | hi
    · exact getElem?_eq_of_pick (fun j hj => hrow ▸ h.moved_lt j hj)
        (fun j hj => hother ▸ h.moved_lt j hj) moved i hi
    · exact getElem?_eq_of_pick (fun j hj => hrow ▸ h.kept_lt j hj)
        (fun j hj => hother ▸ h.kept_lt j hj) kept i hi
  · rw [List.getElem?_eq_none (by omega), List.getElem?_eq_none (by omega)]

end Parts

theorem movedOf_map {β γ : Type} (p : Partition) (f : β → γ) (row : List β) :
    p.movedOf (row.map f) = (p.movedOf row).map f := pick_map f p.moved row

theorem keptOf_map {β γ : Type} (p : Partition) (f : β → γ) (row : List β) :
    p.keptOf (row.map f) = (p.keptOf row).map f := pick_map f p.kept row

/-! ### Partitions of a table -/

section Table

variable {p : Partition} {t : Labels}

/-- Moved and kept variables are different ones. -/
theorem Parts.disjoint_names (parts : p.Parts t.size) :
    (p.movedOf t.names).Disjoint (p.keptOf t.names) :=
  (parts.nodup_parts rfl t.names_valid.nodup).2.2

theorem namesValid_movedOf (parts : p.Parts t.size) : NamesValid (p.movedOf t.names) :=
  t.names_valid.of_subset (parts.movedOf_subset rfl) (parts.nodup_parts rfl t.names_valid.nodup).1

theorem namesValid_keptOf (parts : p.Parts t.size) : NamesValid (p.keptOf t.names) :=
  t.names_valid.of_subset (parts.keptOf_subset rfl) (parts.nodup_parts rfl t.names_valid.nodup).2.1

end Table

/-! ### The partition of some wanted names -/

theorem repeated?_eq_none : ∀ {names before : List String}, repeated? before names = none →
    names.Nodup ∧ ∀ name ∈ names, name ∉ before
  | [], _, _ => ⟨.nil, by simp⟩
  | name :: names, before, h => by
    rw [repeated?] at h
    split at h
    · cases h
    · next fresh =>
      obtain ⟨nodup, apart⟩ := repeated?_eq_none h
      refine ⟨List.nodup_cons.2 ⟨fun mem => apart name mem List.mem_cons_self, nodup⟩, ?_⟩
      intro x hx
      rcases List.mem_cons.1 hx with rfl | hx
      · simpa using fresh
      · exact fun mem => apart x hx (List.mem_cons_of_mem _ mem)

/-- The positions of the names to move are distinct, and each is the one of a wanted name. -/
theorem answers_locateAll (source target : Labels) : ∀ {wanted : List String}, wanted.Nodup →
    Traced.Answers (locateAll source target wanted) fun moved =>
      moved.Nodup ∧ ∀ i ∈ moved, ∃ name ∈ wanted, source.names.idxOf? name = some i
  | [], _ => Traced.answers_pure ⟨.nil, by simp⟩
  | name :: wanted, h => by
    obtain ⟨fresh, nodup⟩ := List.nodup_cons.1 h
    have rest := answers_locateAll source target nodup
    refine Traced.answers_bind (Traced.answers_ofExcept fun _ => id) fun located hlocated => ?_
    cases located with
    | none =>
      refine Traced.answers_after fun _ v => Traced.ensures_mono (rest v) fun r _ hr moved hm => ?_
      obtain ⟨nodup, all⟩ := hr moved hm
      refine ⟨nodup, fun i hi => ?_⟩
      obtain ⟨other, hother, hi⟩ := all i hi
      exact ⟨other, List.mem_cons_of_mem _ hother, hi⟩
    | some i =>
      have hi : source.names.idxOf? name = some i := by
        unfold locate at hlocated
        split at hlocated <;> simp_all
      refine Traced.answers_bind rest fun moved hm => Traced.answers_pure ⟨?_, ?_⟩
      · refine List.nodup_cons.2 ⟨fun mem => ?_, hm.1⟩
        obtain ⟨other, hother, hi'⟩ := hm.2 i mem
        have same : some name = some other :=
          (getElem?_of_idxOf? hi).2.symm.trans (getElem?_of_idxOf? hi').2
        exact fresh (Option.some.inj same ▸ hother)
      · intro j hj
        rcases List.mem_cons.1 hj with rfl | hj
        · exact ⟨name, List.mem_cons_self, hi⟩
        · obtain ⟨other, hother, hj⟩ := hm.2 j hj
          exact ⟨other, List.mem_cons_of_mem _ hother, hj⟩

/-- Wanted names part all variables of the source. -/
theorem answers_ofNames (wanted : List String) (source target : Labels) :
    Traced.Answers (ofNames wanted source target) fun p => p.Parts source.size := by
  unfold ofNames
  split
  · exact Traced.answers_throw _
  · next h =>
    refine Traced.answers_bind (answers_locateAll source target (repeated?_eq_none h).1) fun moved hm => ?_
    refine Traced.answers_pure ?_
    have lt : ∀ i ∈ moved, i < source.size := fun i hi => by
      obtain ⟨name, -, hi⟩ := hm.2 i hi
      exact (getElem?_of_idxOf? hi).1
    refine (List.perm_ext_iff_of_nodup ?_ List.nodup_range).2 fun i => ?_
    · refine List.nodup_append.2 ⟨hm.1, List.nodup_range.filter _, ?_⟩
      rintro i hi j hj rfl
      simp [hi] at hj
    · by_cases hi : i ∈ moved <;> simp [hi, lt]

end Atomistic.Partition
