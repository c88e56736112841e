import Atomistic.Descriptor.Densify
import Mathlib.Data.List.Nodup

/-!
# First occurrences and numbers

The elements of a list in the order in which they are first seen are a set: the same elements, each
of them once. The number that a list gives to one of its elements is its position, when no element
occurs twice.
-/

namespace Atomistic

variable {β : Type} [BEq β] [Hashable β] [LawfulBEq β]

/-! ### First occurrences -/

theorem mem_firstSeenAfter {x : β} : ∀ {xs : List β} {seen : Std.HashSet β},
    x ∈ firstSeenAfter seen xs ↔ x ∈ xs ∧ x ∉ seen
  | [], seen => by simp [firstSeenAfter]
  | y :: xs, seen => by
    by_cases hy : y ∈ seen
    · rw [firstSeenAfter, if_pos (Std.HashSet.contains_iff_mem.2 hy), mem_firstSeenAfter]
      constructor
      · rintro ⟨hx, hs⟩
        exact ⟨List.mem_cons_of_mem _ hx, hs⟩
      · rintro ⟨hx, hs⟩
        rcases List.mem_cons.1 hx with rfl | hx
        · exact absurd hy hs
        · exact ⟨hx, hs⟩
    · rw [firstSeenAfter, if_neg (by simpa using hy), List.mem_cons, mem_firstSeenAfter,
        Std.HashSet.mem_insert, List.mem_cons]
      by_cases hxy : x = y
      · subst hxy
        simp [hy]
      · simp [hxy, Ne.symm hxy]

theorem nodup_firstSeenAfter : ∀ {xs : List β} {seen : Std.HashSet β},
    (firstSeenAfter seen xs).Nodup
  | [], _ => .nil
  | y :: xs, seen => by
    rw [firstSeenAfter]
    split
    · exact nodup_firstSeenAfter
    · refine List.nodup_cons.2 ⟨fun hy => ?_, nodup_firstSeenAfter⟩
      exact (mem_firstSeenAfter.1 hy).2 (Std.HashSet.mem_insert_self)

@[simp] theorem mem_firstSeen {x : β} {xs : List β} : x ∈ firstSeen xs ↔ x ∈ xs := by
  simp [firstSeen, mem_firstSeenAfter]

theorem nodup_firstSeen (xs : List β) : (firstSeen xs).Nodup := nodup_firstSeenAfter

theorem firstSeenAfter_eq : ∀ (xs : List β) (seen : Std.HashSet β),
    firstSeenAfter seen xs = (xs.filter fun x => !seen.contains x).eraseDups
  | [], _ => rfl
  | y :: xs, seen => by
    by_cases hy : seen.contains y = true
    · rw [firstSeenAfter, if_pos hy, firstSeenAfter_eq, List.filter_cons_of_neg (by simp [hy])]
    · rw [firstSeenAfter, if_neg hy, firstSeenAfter_eq, List.filter_cons_of_pos (by simp [hy]),
        List.eraseDups_cons, List.filter_filter]
      congr 3
      funext x
      rw [Std.HashSet.contains_insert, Bool.not_or, Bool.beq_comm]

/-- So the elements in the order in which they are first seen are what is left of the list without
later repetitions. -/
theorem firstSeen_eq_eraseDups (xs : List β) : firstSeen xs = xs.eraseDups := by
  rw [firstSeen, firstSeenAfter_eq]
  simp

/-- After the elements of a first list, those that it does not have are new. -/
theorem firstSeen_append (xs ys : List β) :
    firstSeen (xs ++ ys) = firstSeen xs ++ firstSeen (ys.filter fun y => !xs.contains y) := by
  simp only [firstSeen_eq_eraseDups, List.eraseDups_append]
  rfl

theorem firstSeen_append_of_subset {xs ys : List β} (h : ys ⊆ xs) :
    firstSeen (xs ++ ys) = firstSeen xs := by
  have nothing : (ys.filter fun y => !xs.contains y) = [] := by
    refine List.filter_eq_nil_iff.2 fun y hy => ?_
    simpa using h hy
  rw [firstSeen_append, nothing]
  exact List.append_nil _

theorem firstSeen_append_of_disjoint {xs ys : List β} (h : xs.Disjoint ys) :
    firstSeen (xs ++ ys) = firstSeen xs ++ firstSeen ys := by
  have all : (ys.filter fun y => !xs.contains y) = ys := by
    refine List.filter_eq_self.2 fun y hy => ?_
    simpa using fun hx => h hx hy
  rw [firstSeen_append, all]

theorem firstSeen_cons (x : β) (xs : List β) :
    firstSeen (x :: xs) = x :: firstSeen (xs.filter fun y => !y == x) := by
  rw [firstSeen_eq_eraseDups, firstSeen_eq_eraseDups, List.eraseDups_cons]

theorem firstSeen_of_nodup : ∀ {xs : List β}, xs.Nodup → firstSeen xs = xs
  | [], _ => rfl
  | x :: xs, h => by
    obtain ⟨hx, hxs⟩ := List.nodup_cons.1 h
    have others : (xs.filter fun y => !y == x) = xs := by
      refine List.filter_eq_self.2 fun y hy => ?_
      have other : y ≠ x := fun same => hx (same ▸ hy)
      simpa using other
    rw [firstSeen_cons, others, firstSeen_of_nodup hxs]

/-- Elements that are told apart are seen in the same order under other names. -/
theorem firstSeen_map {γ : Type} [BEq γ] [Hashable γ] [LawfulBEq γ] {f : β → γ} :
    ∀ {xs : List β}, (∀ x ∈ xs, ∀ y ∈ xs, f x = f y → x = y) →
      firstSeen (xs.map f) = (firstSeen xs).map f
  | [], _ => rfl
  | x :: xs, inj => by
    have others : (xs.filter fun y => !f y == f x) = xs.filter fun y => !y == x := by
      refine List.filter_congr fun y hy => congrArg not ?_
      rw [Bool.eq_iff_iff, beq_iff_eq, beq_iff_eq]
      exact ⟨inj y (List.mem_cons_of_mem _ hy) x List.mem_cons_self, congrArg f⟩
    have rest : ∀ y ∈ xs.filter (fun y => !y == x), y ∈ x :: xs := fun y hy =>
      List.mem_cons_of_mem _ (List.mem_of_mem_filter hy)
    rw [List.map_cons, firstSeen_cons, firstSeen_cons, List.filter_map, List.map_cons]
    change f x :: firstSeen ((xs.filter fun y => !f y == f x).map f) = _
    rw [others, firstSeen_map fun y hy z hz => inj y (rest y hy) z (rest z hz)]
termination_by xs => xs.length
decreasing_by exact Nat.lt_succ_of_le (List.length_filter_le _ _)

omit [BEq β] [Hashable β] [LawfulBEq β] in
theorem flatMap_filter {γ : Type} (p : β → Bool) (f : β → List γ) (xs : List β) :
    (xs.filter p).flatMap f = xs.flatMap fun x => if p x then f x else [] := by
  induction xs with
  | nil => rfl
  | cons x xs ih => by_cases hx : p x <;> simp [hx, ih]

/-- In a grid whose places are told apart, rows and columns are seen in their own order. -/
theorem firstSeen_flatMap_map {γ δ : Type} [BEq γ] [Hashable γ] [LawfulBEq γ] [BEq δ]
    [Hashable δ] [LawfulBEq δ] {join : β → γ → δ} {inner : List γ} : ∀ {outer : List β},
    (∀ b ∈ outer, ∀ c ∈ inner, ∀ b' ∈ outer, ∀ c' ∈ inner,
      join b c = join b' c' → b = b' ∧ c = c') →
    firstSeen (outer.flatMap fun b => inner.map (join b))
      = (firstSeen outer).flatMap fun b => (firstSeen inner).map (join b)
  | [], _ => rfl
  | b :: outer, inj => by
    let block := fun b' => inner.map (join b')
    have rest : outer.filter (fun b' => !b' == b) ⊆ b :: outer := fun b' hb' =>
      List.mem_cons_of_mem _ (List.mem_of_mem_filter hb')
    have row : firstSeen (block b) = (firstSeen inner).map (join b) :=
      firstSeen_map fun c hc c' hc' same =>
        (inj b List.mem_cons_self c hc b List.mem_cons_self c' hc' same).2
    -- a later row is new as a whole, or it is this one again
    have new : ∀ b' ∈ outer, (block b').filter (fun x => !(block b).contains x)
        = if !b' == b then block b' else [] := by
      intro b' hb'
      by_cases same : b' = b
      · subst same
        simp
      · have apart : ∀ x ∈ block b', x ∉ block b := by
          intro x hx hx'
          obtain ⟨c, hc, rfl⟩ := List.mem_map.1 hx
          obtain ⟨c', hc', again⟩ := List.mem_map.1 hx'
          have later := List.mem_cons_of_mem b hb'
          exact same (inj b List.mem_cons_self c' hc' b' later c hc again).1.symm
        rw [List.filter_eq_self.2 fun x hx => by simpa using apart x hx]
        simp [same]
    have later : (outer.flatMap block).filter (fun x => !(block b).contains x)
        = (outer.filter fun b' => !b' == b).flatMap block := by
      rw [List.filter_flatMap, List.flatMap_congr new, flatMap_filter]
    rw [List.flatMap_cons, firstSeen_append, firstSeen_cons, List.flatMap_cons, row, later,
      firstSeen_flatMap_map fun b' hb' c hc b'' hb'' => inj b' (rest hb') c hc b'' (rest hb'')]
termination_by outer => outer.length
decreasing_by exact Nat.lt_succ_of_le (List.length_filter_le _ _)

/-- Elements that come in a row are seen once. -/
theorem firstSeen_flatMap_map_const {γ : Type} {inner : List γ} (some : inner ≠ []) :
    ∀ {outer : List β}, outer.Nodup →
      firstSeen (outer.flatMap fun x => inner.map fun _ => x) = outer
  | [], _ => rfl
  | x :: outer, h => by
    obtain ⟨hx, houter⟩ := List.nodup_cons.1 h
    have apart : (inner.map fun _ => x).Disjoint (outer.flatMap fun y => inner.map fun _ => y) := by
      intro y hy hy'
      obtain ⟨_, -, rfl⟩ := List.mem_map.1 hy
      obtain ⟨z, hz, again⟩ := List.mem_flatMap.1 hy'
      obtain ⟨_, -, rfl⟩ := List.mem_map.1 again
      exact hx hz
    have block : firstSeen (inner.map fun _ => x) = [x] := by
      obtain ⟨c, inner, rfl⟩ := List.exists_cons_of_ne_nil some
      rw [List.map_cons, firstSeen_cons, List.filter_map]
      simp [firstSeen_eq_eraseDups, Function.comp_def]
    rw [List.flatMap_cons, firstSeen_append_of_disjoint apart, block,
      firstSeen_flatMap_map_const some houter]
    rfl

/-- What comes again and again is seen the first time. -/
theorem firstSeen_flatMap_const {γ : Type} {outer : List γ} (some : outer ≠ []) {inner : List β}
    (h : inner.Nodup) : firstSeen (outer.flatMap fun _ => inner) = inner := by
  obtain ⟨c, outer', rfl⟩ := List.exists_cons_of_ne_nil some
  have again : (outer'.flatMap fun _ => inner) ⊆ inner := by
    intro x hx
    obtain ⟨_, -, hx⟩ := List.mem_flatMap.1 hx
    exact hx
  rw [List.flatMap_cons, firstSeen_append_of_subset again, firstSeen_of_nodup h]

/-! ### Numbers -/

/-- Numbering goes on with an element that is seen for the first time. -/
theorem foldl_insert_zipIdx {x : β} : ∀ {xs : List β} {start : Nat} {map : Std.HashMap β Nat},
    xs.Nodup → ((xs.zipIdx start).foldl (fun map (y, i) => map.insert y i) map)[x]?
      = ((xs.idxOf? x).map (start + ·)).or map[x]?
  | [], _, _, _ => by simp
  | y :: xs, start, map, h => by
    obtain ⟨hy, hxs⟩ := List.nodup_cons.1 h
    rw [List.zipIdx_cons, List.foldl_cons, foldl_insert_zipIdx hxs, Std.HashMap.getElem?_insert,
      List.idxOf?_cons]
    by_cases hxy : y = x
    · subst hxy
      simp [List.idxOf?_eq_none_iff.2 hy]
    · cases xs.idxOf? x <;> simp [hxy, Nat.add_assoc, Nat.add_comm 1]

/-- In a list without repetitions, the number of an element is its position. -/
theorem getElem?_numbering {xs : List β} (h : xs.Nodup) (x : β) :
    (numbering xs)[x]? = xs.idxOf? x := by
  rw [numbering, foldl_insert_zipIdx h]
  simp

end Atomistic
