import Atomistic.Proofs.ExactVector
import Atomistic.Neighbors.NeighborsList
import Atomistic.Proofs.SortedSets
import Mathlib.Data.Prod.Lex

/-!
# Images of one pair

What is to be kept of the images that are met: the images of each pair, wherever they are in a list,
form one group, and of each group the number of its images is kept and the closest one, which is the
first one of equally close ones. Groups are in the order of their atoms.
-/

namespace Atomistic

/-! ### Groups of pairs -/

/-- The atoms of a pair, in lexicographic order. -/
def Pair.key {α : Type} (p : Pair α) : ℕ ×ₗ ℕ := toLex p.atoms

namespace NeighborsList

variable {α : Type}

/-- Do two pairs join the same atoms? -/
def sameAtoms (p q : Pair α) : Bool := p.atoms == q.atoms

/-- A pair with all its images closer than the cutoff: the closest one, and their number. -/
structure Images (α : Type) where
  closest : Pair α
  count : Nat

theorem inOrder_iff (p q : Pair α) : inOrder p q = true ↔ p.key ≤ q.key := by
  rw [Pair.key, Pair.key, Prod.Lex.toLex_le_toLex, inOrder, Bool.or_eq_true, Bool.and_eq_true,
    beq_iff_eq, decide_eq_true_eq, decide_eq_true_eq]
  rfl

theorem sameAtoms_iff (p q : Pair α) : sameAtoms p q = true ↔ p.key = q.key := by
  rw [sameAtoms, beq_iff_eq, Pair.key, Pair.key, toLex_inj]

theorem inOrder_trans (p q r : Pair α) (hpq : inOrder p q = true) (hqr : inOrder q r = true) :
    inOrder p r = true := by
  rw [inOrder_iff] at *
  exact hpq.trans hqr

theorem inOrder_total (p q : Pair α) : (inOrder p q || inOrder q p) = true := by
  rw [Bool.or_eq_true, inOrder_iff, inOrder_iff]
  exact le_total _ _

theorem pairwise_sorted (found : List (Pair α)) :
    (found.mergeSort inOrder).Pairwise fun p q => p.key ≤ q.key :=
  (List.pairwise_mergeSort inOrder_trans inOrder_total found).imp fun {p q} => (inOrder_iff p q).1

theorem grouped_pairs (found : List (Pair α)) :
    Grouped Pair.key ((found.mergeSort inOrder).splitBy sameAtoms) :=
  grouped_splitBy sameAtoms_iff (pairwise_sorted found)

/-- Sorting pairs by their atoms keeps the order of those with the same atoms. -/
theorem filter_mergeSort (found : List (Pair α)) (k : ℕ ×ₗ ℕ) :
    (found.mergeSort inOrder).filter (fun q => q.key = k) = found.filter fun q => q.key = k := by
  have together : (found.filter fun q => q.key = k).Pairwise fun p q => inOrder p q = true := by
    refine List.pairwise_of_forall_mem_list fun p hp q hq => (inOrder_iff p q).2 ?_
    rw [List.mem_filter, decide_eq_true_eq] at hp hq
    exact (hp.2.trans hq.2.symm).le
  have kept := (List.sublist_mergeSort inOrder_trans inOrder_total together
    List.filter_sublist).filter fun q => decide (q.key = k)
  simp only [List.filter_filter, Bool.and_self] at kept
  exact (kept.eq_of_length ((List.mergeSort_perm found inOrder).filter _).length_eq.symm).symm

section Closest

variable [Scalar α]

/-- The closer of two images of a pair, the earlier one when they are equally close. -/
def closer (p q : Pair α) : Pair α := if Scalar.lt q.vector.norm2 p.vector.norm2 then q else p

/-- The images of a pair, from all of them in the order in which they were met. -/
def Images.ofList? : List (Pair α) → Option (Images α)
  | [] => none
  | p :: rest => some ⟨rest.foldl closer p, rest.length + 1⟩

/-- The images of each pair. Sorting by atoms keeps the order in which images were met. -/
def gather (found : List (Pair α)) : List (Images α) :=
  ((found.mergeSort inOrder).splitBy sameAtoms).filterMap Images.ofList?

theorem foldl_closer_mem (p : Pair α) (rest : List (Pair α)) :
    rest.foldl closer p ∈ p :: rest := by
  induction rest generalizing p with
  | nil => exact List.mem_singleton_self p
  | cons q rest ih =>
    rw [List.foldl_cons]
    have here : closer p q = p ∨ closer p q = q := by
      rw [closer]
      split
      · exact .inr rfl
      · exact .inl rfl
    rcases List.mem_cons.1 (ih (closer p q)) with closest | later
    · rw [closest]
      rcases here with h | h <;> rw [h] <;> simp
    · exact List.mem_cons_of_mem _ (List.mem_cons_of_mem _ later)

/-- The images of a pair are all of its occurrences in the list, in their order. -/
theorem ofList?_of_mem_gather {found : List (Pair α)} {images : Images α}
    (h : images ∈ gather found) :
    Images.ofList? (found.filter fun q => q.key = images.closest.key) = some images := by
  rw [gather, List.mem_filterMap] at h
  obtain ⟨g, hg, himages⟩ := h
  cases g with
  | nil => cases himages
  | cons p rest =>
    cases himages
    have grouped := grouped_pairs found
    have all := grouped.filter_flatten (k := (rest.foldl closer p).key)
      (p := fun q => q.key = (rest.foldl closer p).key) (by simp) (p :: rest) hg
      fun q hq => grouped.same _ hg q hq _ (foldl_closer_mem p rest)
    rw [List.flatten_splitBy, filter_mergeSort] at all
    rw [all]
    rfl

theorem exists_group {found : List (Pair α)} {images : Images α} (h : images ∈ gather found) :
    ∃ p rest, images = ⟨rest.foldl closer p, rest.length + 1⟩ ∧
      found.filter (fun q => q.key = images.closest.key) = p :: rest := by
  have all := ofList?_of_mem_gather h
  cases group : found.filter fun q => q.key = images.closest.key with
  | nil =>
    rw [group] at all
    cases all
  | cons p rest =>
    rw [group] at all
    exact ⟨p, rest, (Option.some.inj all).symm, rfl⟩

theorem closest_mem_of_gather {found : List (Pair α)} {images : Images α}
    (h : images ∈ gather found) : images.closest ∈ found := by
  obtain ⟨p, rest, rfl, group⟩ := exists_group h
  exact List.mem_of_mem_filter (group ▸ foldl_closer_mem p rest)

theorem count_of_gather {found : List (Pair α)} {images : Images α} (h : images ∈ gather found) :
    images.count = (found.filter fun q => q.key = images.closest.key).length := by
  obtain ⟨p, rest, rfl, group⟩ := exists_group h
  rw [group]
  rfl

/-- Every pair that was found has its images. -/
theorem exists_mem_gather {found : List (Pair α)} {p : Pair α} (h : p ∈ found) :
    ∃ images ∈ gather found, images.closest.key = p.key := by
  have sorted : p ∈ ((found.mergeSort inOrder).splitBy sameAtoms).flatten := by
    rw [List.flatten_splitBy]
    exact (List.mergeSort_perm found inOrder).mem_iff.2 h
  obtain ⟨g, hg, hp⟩ := List.mem_flatten.1 sorted
  cases g with
  | nil => cases hp
  | cons q rest =>
    refine ⟨⟨rest.foldl closer q, rest.length + 1⟩, List.mem_filterMap.2 ⟨_, hg, rfl⟩, ?_⟩
    exact (grouped_pairs found).same _ hg _ (foldl_closer_mem q rest) p hp

/-- So the groups are told from the list alone. -/
theorem mem_gather {found : List (Pair α)} {images : Images α} : images ∈ gather found ↔
    Images.ofList? (found.filter fun q => q.key = images.closest.key) = some images := by
  refine ⟨ofList?_of_mem_gather, fun all => ?_⟩
  obtain ⟨p, hp, same⟩ : ∃ p ∈ found, p.key = images.closest.key := by
    cases group : found.filter fun q => q.key = images.closest.key with
    | nil =>
      rw [group] at all
      cases all
    | cons p rest =>
      have here := List.mem_filter.1 (group ▸ List.mem_cons_self)
      exact ⟨p, here.1, of_decide_eq_true here.2⟩
  obtain ⟨images', there, same'⟩ := exists_mem_gather hp
  have all' := ofList?_of_mem_gather there
  rw [same', same, all] at all'
  exact Option.some.inj all' ▸ there

/-- Pairs are listed in the order of their atoms, each pair of atoms once. -/
theorem pairwise_gather (found : List (Pair α)) :
    (gather found).Pairwise fun i j => i.closest.key < j.closest.key := by
  refine List.Pairwise.filterMap _ (fun g g' less i hi j hj => ?_) (grouped_pairs found).increasing
  cases g with
  | nil => cases hi
  | cons p rest =>
    cases g' with
    | nil => cases hj
    | cons q others =>
      cases hi
      cases hj
      exact less _ (foldl_closer_mem p rest) _ (foldl_closer_mem q others)

end Closest

section Exact

variable [ExactField α]

theorem foldl_closer_le (p : Pair α) (rest : List (Pair α)) :
    ∀ q ∈ p :: rest, (rest.foldl closer p).vector.norm2 ≤ q.vector.norm2 := by
  induction rest generalizing p with
  | nil => simp
  | cons r rest ih =>
    rw [List.foldl_cons]
    have best := ih (closer p r)
    have step : (closer p r).vector.norm2 ≤ p.vector.norm2
        ∧ (closer p r).vector.norm2 ≤ r.vector.norm2 := by
      rw [closer]
      split
      · next less =>
        rw [ExactField.lt_eq_true] at less
        exact ⟨less.le, le_rfl⟩
      · next more =>
        rw [ExactField.lt_eq_true, not_lt] at more
        exact ⟨le_rfl, more⟩
    have head := best _ List.mem_cons_self
    intro q hq
    rcases List.mem_cons.1 hq with rfl | hq
    · exact head.trans step.1
    rcases List.mem_cons.1 hq with rfl | hq
    · exact head.trans step.2
    · exact best q (List.mem_cons_of_mem _ hq)

/-- No other image of the pair is closer. -/
theorem closest_le_of_gather {found : List (Pair α)} {images : Images α}
    (h : images ∈ gather found) {q : Pair α} (hq : q ∈ found)
    (same : q.key = images.closest.key) :
    images.closest.vector.norm2 ≤ q.vector.norm2 := by
  obtain ⟨p, rest, rfl, group⟩ := exists_group h
  refine foldl_closer_le p rest q ?_
  rw [← group, List.mem_filter, decide_eq_true_eq]
  exact ⟨hq, same⟩

end Exact

end NeighborsList

end Atomistic
