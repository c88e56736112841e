import Atomistic.SortedSet
import Mathlib.Data.List.Lex
import Mathlib.Data.List.Sort
import Mathlib.Data.List.SplitBy

/-!
# Sorted lists

A sorted list falls into groups of elements with the same key, whose keys increase from group to
group. Sets are kept as sorted lists, of which the first element of each group of equal ones
remains: so a set has exactly the elements of the list it was made from, and two sets with the same
elements are the same list.
-/

namespace Atomistic

/-! ### Groups of a sorted list -/

section Groups

variable {β κ : Type} [LinearOrder κ] {key : β → κ} {groups : List (List β)}

/-- Lists of elements that have one key each, from list to list a larger one. -/
structure Grouped (key : β → κ) (groups : List (List β)) : Prop where
  nonempty : [] ∉ groups
  same : ∀ g ∈ groups, ∀ b ∈ g, ∀ c ∈ g, key b = key c
  increasing : groups.Pairwise fun g g' => ∀ b ∈ g, ∀ c ∈ g', key b < key c

/-- Keys that grow at the borders of sorted groups grow everywhere between them. -/
theorem pairwise_of_borders {r : β → β → Bool} (hr : ∀ b c, r b c = true ↔ key b = key c) :
    ∀ {groups : List (List β)}, groups.flatten.Pairwise (fun b c => key b ≤ key c) →
      (∀ g ∈ groups, ∀ b ∈ g, ∀ c ∈ g, key b = key c) →
      groups.IsChain (fun g g' => ∃ hg hg', r (g.getLast hg) (g'.head hg') = false) →
      groups.Pairwise fun g g' => ∀ b ∈ g, ∀ c ∈ g', key b < key c
  | [], _, _, _ => .nil
  | [g], _, _, _ => List.pairwise_singleton _ g
  | g :: next :: rest, sorted, same, borders => by
    rw [List.flatten_cons, List.pairwise_append] at sorted
    rw [List.isChain_cons_cons] at borders
    obtain ⟨-, sorted, before⟩ := sorted
    obtain ⟨⟨hg, hnext, differ⟩, borders⟩ := borders
    have later := pairwise_of_borders hr sorted
      (fun g hmem => same g (List.mem_cons_of_mem _ hmem)) borders
    refine List.pairwise_cons.2 ⟨fun g' hg' b hb c hc => ?_, later⟩
    have last : g.getLast hg ∈ g := List.getLast_mem hg
    have first : next.head hnext ∈ next := List.head_mem hnext
    have border : key (g.getLast hg) < key (next.head hnext) := by
      refine lt_of_le_of_ne (before _ last _ (List.mem_append_left _ first)) fun eq => ?_
      rw [(hr _ _).2 eq] at differ
      cases differ
    rw [same g List.mem_cons_self b hb _ last]
    refine border.trans_le ?_
    rcases List.mem_cons.1 hg' with rfl | hg'
    · exact (same g' (List.mem_cons_of_mem _ List.mem_cons_self) _ first c hc).le
    · exact (List.rel_of_pairwise_cons later hg' _ first c hc).le

/-- Splitting a sorted list where its keys change groups it. -/
theorem grouped_splitBy {r : β → β → Bool} (hr : ∀ b c, r b c = true ↔ key b = key c) {xs : List β}
    (sorted : xs.Pairwise fun b c => key b ≤ key c) : Grouped key (xs.splitBy r) := by
  have same : ∀ g ∈ xs.splitBy r, ∀ b ∈ g, ∀ c ∈ g, key b = key c := by
    intro g hg
    have chain : g.IsChain fun b c => key b = key c :=
      (List.isChain_of_mem_splitBy hg).imp fun b c => (hr b c).1
    have trans : IsTrans β fun b c => key b = key c := ⟨fun _ _ _ => Eq.trans⟩
    have symm : Std.Symm fun b c : β => key b = key c := ⟨fun _ _ => Eq.symm⟩
    exact (List.isChain_iff_pairwise.1 chain).forall_of_forall fun _ _ => rfl
  refine ⟨List.nil_notMem_splitBy r xs, same, pairwise_of_borders hr ?_ same ?_⟩
  · rw [List.flatten_splitBy]
    exact sorted
  · exact List.isChain_getLast_head_splitBy r xs

/-- A group holds all elements that have its key. -/
theorem Grouped.filter_flatten {p : β → Bool} {k : κ} (hp : ∀ b, p b = true ↔ key b = k) :
    ∀ {groups : List (List β)}, Grouped key groups → ∀ g ∈ groups, (∀ b ∈ g, key b = k) →
      groups.flatten.filter p = g
  | [], _, g, hg, _ => absurd hg List.not_mem_nil
  | first :: rest, h, g, hg, hk => by
    obtain ⟨after, increasing⟩ := List.pairwise_cons.1 h.increasing
    rw [List.flatten_cons, List.filter_append]
    rcases List.mem_cons.1 hg with rfl | hg
    · have others : rest.flatten.filter p = [] := by
        rw [List.filter_eq_nil_iff]
        intro c hc hpc
        obtain ⟨g', hg', hc⟩ := List.mem_flatten.1 hc
        obtain ⟨b, hb⟩ := List.exists_mem_of_ne_nil g fun empty => h.nonempty (empty ▸ hg)
        have less := after g' hg' b hb c hc
        rw [hk b hb, (hp c).1 hpc] at less
        exact lt_irrefl k less
      rw [others, List.append_nil, List.filter_eq_self]
      exact fun b hb => (hp b).2 (hk b hb)
    · have none : first.filter p = [] := by
        rw [List.filter_eq_nil_iff]
        intro b hb hpb
        obtain ⟨c, hc⟩ := List.exists_mem_of_ne_nil g fun empty =>
          h.nonempty (empty ▸ List.mem_cons_of_mem _ hg)
        have less := after g hg b hb c hc
        rw [hk c hc, (hp b).1 hpb] at less
        exact lt_irrefl k less
      have tail : Grouped key rest :=
        ⟨fun mem => h.nonempty (List.mem_cons_of_mem _ mem),
          fun g hg => h.same g (List.mem_cons_of_mem _ hg), increasing⟩
      rw [none, List.nil_append, filter_flatten hp tail g hg hk]

end Groups

/-! ### Sets -/

section Sets

variable {β : Type} [LinearOrder β] [BEq β] [LawfulBEq β] {le : β → β → Bool} {xs : List β}

omit [BEq β] [LawfulBEq β] in
theorem pairwise_mergeSort_le (hle : ∀ b c, le b c = true ↔ b ≤ c) (xs : List β) :
    (xs.mergeSort le).Pairwise (· ≤ ·) := by
  refine (List.pairwise_mergeSort ?_ ?_ xs).imp fun h => (hle _ _).1 h
  · simp only [hle]
    exact fun _ _ _ => le_trans
  · intro b c
    rw [Bool.or_eq_true, hle, hle]
    exact le_total b c

omit [BEq β] [LawfulBEq β] in
/-- The heads of groups, of which none is empty, are in increasing order. -/
theorem Grouped.pairwise_heads {groups : List (List β)} (h : Grouped id groups) :
    (groups.filterMap List.head?).Pairwise (· < ·) := by
  rw [List.pairwise_filterMap]
  refine h.increasing.imp fun less b hb c hc => ?_
  exact less b (List.mem_of_mem_head? hb) c (List.mem_of_mem_head? hc)

theorem grouped_sortedSet (hle : ∀ b c, le b c = true ↔ b ≤ c) (xs : List β) :
    Grouped id ((xs.mergeSort le).splitBy (· == ·)) :=
  grouped_splitBy (fun _ _ => beq_iff_eq) (pairwise_mergeSort_le hle xs)

theorem pairwise_sortedSet (hle : ∀ b c, le b c = true ↔ b ≤ c) (xs : List β) :
    (sortedSet le xs).Pairwise (· < ·) :=
  (grouped_sortedSet hle xs).pairwise_heads

/-- A set has the elements of the list that it was made from. -/
theorem mem_sortedSet (hle : ∀ b c, le b c = true ↔ b ≤ c) {x : β} :
    x ∈ sortedSet le xs ↔ x ∈ xs := by
  have grouped := grouped_sortedSet hle xs
  rw [← (List.mergeSort_perm xs le).mem_iff, ← List.flatten_splitBy (· == ·) (xs.mergeSort le),
    List.mem_flatten]
  constructor
  · intro h
    obtain ⟨g, hg, hx⟩ := List.mem_filterMap.1 h
    exact ⟨g, hg, List.mem_of_mem_head? hx⟩
  · rintro ⟨g, hg, hx⟩
    cases g with
    | nil => exact absurd hg grouped.nonempty
    | cons b rest =>
      have head : x = b := grouped.same _ hg _ hx _ List.mem_cons_self
      exact List.mem_filterMap.2 ⟨b :: rest, hg, congrArg some head.symm⟩

end Sets

/-! ### Sets of labels and of rows -/

theorem rowLe_iff : ∀ r s : List Int, rowLe r s = true ↔ r ≤ s
  | [], [] => iff_of_true rfl le_rfl
  | [], _ :: _ => iff_of_true rfl (le_of_lt (List.nil_lt_cons _ _))
  | _ :: _, [] => iff_of_false Bool.false_ne_true (not_le_of_gt (List.nil_lt_cons _ _))
  | a :: r, b :: s => by
    rw [rowLe, Bool.or_eq_true, Bool.and_eq_true, decide_eq_true_eq, beq_iff_eq, rowLe_iff r s,
      le_iff_lt_or_eq, le_iff_lt_or_eq, List.cons_lt_cons_iff, List.cons.injEq, and_or_left,
      or_assoc]

theorem mem_sortedRows {rows : List (List Int)} {row : List Int} :
    row ∈ sortedRows rows ↔ row ∈ rows := mem_sortedSet rowLe_iff

theorem pairwise_sortedRows (rows : List (List Int)) : (sortedRows rows).Pairwise (· < ·) :=
  pairwise_sortedSet rowLe_iff rows

theorem mem_sortedLabels {labels : List Int} {label : Int} :
    label ∈ sortedLabels labels ↔ label ∈ labels := mem_sortedSet fun _ _ => decide_eq_true_iff

theorem pairwise_sortedLabels (labels : List Int) : (sortedLabels labels).Pairwise (· < ·) :=
  pairwise_sortedSet (fun _ _ => decide_eq_true_iff) labels

/-- Sorted rows are the same when they are the same rows. -/
theorem sortedRows_eq {rows sorted : List (List Int)} (hsorted : sorted.Pairwise (· < ·))
    (h : ∀ row, row ∈ rows ↔ row ∈ sorted) : sortedRows rows = sorted :=
  (pairwise_sortedRows rows).eq_of_mem_iff hsorted fun row => mem_sortedRows.trans (h row)

theorem sortedLabels_eq {labels sorted : List Int} (hsorted : sorted.Pairwise (· < ·))
    (h : ∀ label, label ∈ labels ↔ label ∈ sorted) : sortedLabels labels = sorted :=
  (pairwise_sortedLabels labels).eq_of_mem_iff hsorted fun label => mem_sortedLabels.trans (h label)

end Atomistic
