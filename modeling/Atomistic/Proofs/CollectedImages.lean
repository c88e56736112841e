import Atomistic.Proofs.ImageGroups
import Atomistic.Proofs.LabelTables

/-!
# Collecting images

Images are taken one after the other, in any order. The first image of a pair goes behind all pairs
that are stored, and the number of its place is remembered together with the number of images; a
closer image that comes later takes this place. After any images, the pairs that are stored and what
is remembered of them are those of the groups of these images. Places count for nothing any more once
the pairs are sorted.
-/

namespace Atomistic.NeighborsList

variable {α : Type} [Scalar α]

/-! ### One more image -/

/-- One more image of a pair. -/
theorem Images.ofList?_concat {found : List (Pair α)} {q : Pair α} {count : Nat}
    (h : ofList? found = some ⟨q, count⟩) (p : Pair α) :
    ofList? (found ++ [p]) = some ⟨closer q p, count + 1⟩ := by
  cases found with
  | nil => cases h
  | cons first rest =>
    cases h
    rw [List.cons_append, ofList?, List.foldl_concat, List.length_append, List.length_singleton]

theorem atoms_closer {q p : Pair α} (same : q.atoms = p.atoms) : (closer q p).atoms = p.atoms := by
  rw [closer]
  split
  · rfl
  · exact same

namespace Collected

/-- What is stored and remembered after some images were met. -/
structure Of (met : List (Pair α)) (c : Collected α) : Prop where
  /-- A pair that is remembered is in its place, with the number of its images. -/
  stored : ∀ atoms position count, c.seen[atoms]? = some (position, count) →
    ∃ p : Pair α, c.pairs[position]? = some p ∧ p.atoms = atoms ∧
      Images.ofList? (met.filter fun q => q.key = toLex atoms) = some ⟨p, count⟩
  /-- A pair that is stored is remembered to be where it is. -/
  remembered : ∀ position (p : Pair α), c.pairs[position]? = some p →
    ∃ count, c.seen[p.atoms]? = some (position, count)
  /-- All pairs that were met are remembered. -/
  noticed : ∀ p ∈ met, ∃ entry, c.seen[p.atoms]? = some entry

variable {met : List (Pair α)} {c : Collected α} {p : Pair α}

theorem of_empty : Of [] (empty : Collected α) where
  stored atoms position count h := by simp [empty] at h
  remembered position p h := by simp [empty] at h
  noticed p h := by cases h

omit [Scalar α] in
/-- Images of other pairs make no difference to a pair. -/
theorem filter_concat_ne {atoms : Nat × Nat} (other : p.atoms ≠ atoms) :
    (met ++ [p]).filter (fun q => q.key = toLex atoms)
      = met.filter fun q => q.key = toLex atoms := by
  have apart : ¬p.key = toLex atoms := fun same => other (toLex_inj.1 same)
  rw [List.filter_append, List.filter_singleton, decide_eq_false apart, Bool.cond_false,
    List.append_nil]

omit [Scalar α] in
theorem filter_concat_self :
    (met ++ [p]).filter (fun q => q.key = toLex p.atoms)
      = met.filter (fun q => q.key = toLex p.atoms) ++ [p] := by
  have same : p.key = toLex p.atoms := rfl
  rw [List.filter_append, List.filter_singleton, decide_eq_true same, Bool.cond_true]

omit [Scalar α] in
/-- What is remembered of one pair does not touch what is remembered of the others. -/
theorem seen_insert_of_ne {seen : Std.HashMap (Nat × Nat) (Nat × Nat)} {atoms atoms' : Nat × Nat}
    (other : atoms ≠ atoms') (entry : Nat × Nat) :
    (seen.insert atoms entry)[atoms']? = seen[atoms']? := by
  rw [Std.HashMap.getElem?_insert, if_neg (mt eq_of_beq other)]

/-- Whatever is remembered of one more image, all pairs that were met are remembered then. -/
theorem Of.noticed_insert (h : c.Of met) (entry : Nat × Nat) :
    ∀ q ∈ met ++ [p], ∃ entry', (c.seen.insert p.atoms entry)[q.atoms]? = some entry' := by
  intro q hq
  by_cases here : p.atoms = q.atoms
  · exact ⟨entry, here ▸ Std.HashMap.getElem?_insert_self⟩
  · rw [seen_insert_of_ne here]
    rcases List.mem_append.1 hq with hq | hq
    · exact h.noticed q hq
    · exact absurd (List.mem_singleton.1 hq ▸ rfl) here

/-- The first image of a pair is stored behind all others. -/
theorem Of.push (h : c.Of met) (new : c.seen[p.atoms]? = none) :
    Of (met ++ [p]) ⟨c.pairs.push p, c.seen.insert p.atoms (c.pairs.size, 1)⟩ where
  stored atoms position count found := by
    by_cases here : p.atoms = atoms
    · subst here
      rw [Std.HashMap.getElem?_insert_self] at found
      cases found
      have none : met.filter (fun q => q.key = toLex p.atoms) = [] := by
        refine List.filter_eq_nil_iff.2 fun q hq same => ?_
        obtain ⟨entry, noticed⟩ := h.noticed q hq
        rw [toLex_inj.1 (of_decide_eq_true same), new] at noticed
        cases noticed
      exact ⟨p, Array.getElem?_push_size, rfl, by rw [filter_concat_self, none]; rfl⟩
    · rw [seen_insert_of_ne here] at found
      obtain ⟨q, there, atoms, images⟩ := h.stored _ _ _ found
      have inside := (Array.getElem?_eq_some_iff.1 there).1
      refine ⟨q, ?_, atoms, by rw [filter_concat_ne here, images]⟩
      rw [Array.getElem?_push_lt inside, ← Array.getElem?_eq_getElem inside, there]
  remembered position q there := by
    rw [Array.getElem?_push] at there
    split at there
    · next last =>
      cases there
      exact ⟨1, by rw [Std.HashMap.getElem?_insert_self, last]⟩
    · obtain ⟨count, found⟩ := h.remembered position q there
      have other : p.atoms ≠ q.atoms := by
        intro same
        rw [← same, new] at found
        cases found
      exact ⟨count, by rw [seen_insert_of_ne other, found]⟩
  noticed := h.noticed_insert _

/-- A later image of a pair takes its place if it is closer, and is counted in any case. -/
theorem Of.replace (h : c.Of met) {position count : Nat} {q : Pair α}
    (found : c.seen[p.atoms]? = some (position, count)) (there : c.pairs[position]? = some q) :
    Of (met ++ [p])
      ⟨c.pairs.setIfInBounds position (closer q p), c.seen.insert p.atoms (position, count + 1)⟩ := by
  obtain ⟨q', there', atoms, images⟩ := h.stored _ _ _ found
  cases there.symm.trans there'
  have inside := (Array.getElem?_eq_some_iff.1 there).1
  constructor
  case stored =>
    intro atoms' position' count' found'
    by_cases here : p.atoms = atoms'
    · subst here
      rw [Std.HashMap.getElem?_insert_self] at found'
      cases found'
      refine ⟨closer q p, Array.getElem?_setIfInBounds_self_of_lt inside, atoms_closer atoms, ?_⟩
      rw [filter_concat_self, Images.ofList?_concat images]
    · rw [seen_insert_of_ne here] at found'
      obtain ⟨r, there', atoms', images'⟩ := h.stored _ _ _ found'
      -- two pairs in one place would be of the same atoms
      have apart : position ≠ position' := by
        rintro rfl
        cases there.symm.trans there'
        exact here (atoms.symm.trans atoms')
      refine ⟨r, ?_, atoms', by rw [filter_concat_ne here, images']⟩
      rw [Array.getElem?_setIfInBounds_ne apart, there']
  case remembered =>
    intro position' r there'
    rw [Array.getElem?_setIfInBounds] at there'
    by_cases here : position = position'
    · subst here
      rw [if_pos rfl, if_pos inside] at there'
      cases there'
      exact ⟨count + 1, by rw [atoms_closer atoms, Std.HashMap.getElem?_insert_self]⟩
    · rw [if_neg here] at there'
      obtain ⟨count', found'⟩ := h.remembered position' r there'
      have other : p.atoms ≠ r.atoms := by
        intro same
        rw [← same, found] at found'
        cases found'
        exact here rfl
      exact ⟨count', by rw [seen_insert_of_ne other, found']⟩
  case noticed => exact h.noticed_insert _

/-- Whatever image is met next, it finds its place. -/
theorem Of.add (h : c.Of met) (p : Pair α) : ∃ c', c.add p = .ok c' ∧ Of (met ++ [p]) c' := by
  rw [Collected.add]
  cases found : c.seen[p.atoms]? with
  | none => exact ⟨_, rfl, h.push found⟩
  | some entry =>
    obtain ⟨position, count⟩ := entry
    obtain ⟨q, there, -⟩ := h.stored _ _ _ found
    refine ⟨_, ?_, h.replace found there⟩
    have answer : elementAt c.pairs position = .ok q := by rw [elementAt, there]
    refine except_bind_eq_ok.2 ⟨q, answer, ?_⟩
    rw [closer]
    split
    · rfl
    · obtain ⟨inside, rfl⟩ := Array.getElem?_eq_some_iff.1 there
      rw [Array.setIfInBounds, dif_pos inside, Array.set_getElem_self]
      rfl

/-! ### All images -/

/-- All images are taken, one after the other. -/
theorem exists_ofImages (met : List (Pair α)) : ∃ c, ofImages met = .ok c ∧ c.Of met := by
  suffices run : ∀ (rest done : List (Pair α)) (c : Collected α), c.Of done →
      ∃ c', rest.foldlM Collected.add c = .ok c' ∧ Of (done ++ rest) c' from
    run met [] empty of_empty
  intro rest
  induction rest with
  | nil => exact fun done c h => ⟨c, rfl, by rwa [List.append_nil]⟩
  | cons p rest ih =>
    intro done c h
    obtain ⟨next, added, hnext⟩ := h.add p
    obtain ⟨last, run, hlast⟩ := ih (done ++ [p]) next hnext
    refine ⟨last, ?_, by rwa [List.append_assoc] at hlast⟩
    rw [List.foldlM_cons, added]
    exact run

/-! ### Groups -/

/-- The pairs that are stored are the closest images of the groups. -/
theorem Of.mem_pairs (h : c.Of met) :
    p ∈ c.pairs.toList ↔ p ∈ (gather met).map (·.closest) := by
  rw [List.mem_map, Array.mem_toList_iff, Array.mem_iff_getElem?]
  constructor
  · rintro ⟨position, there⟩
    obtain ⟨count, found⟩ := h.remembered position p there
    obtain ⟨q, there', -, images⟩ := h.stored _ _ _ found
    cases there.symm.trans there'
    exact ⟨⟨p, count⟩, mem_gather.2 images, rfl⟩
  · rintro ⟨images, hmem, rfl⟩
    obtain ⟨⟨position, count⟩, found⟩ := h.noticed _ (closest_mem_of_gather hmem)
    obtain ⟨q, there, -, images'⟩ := h.stored _ _ _ found
    cases (mem_gather.1 hmem).symm.trans images'
    exact ⟨position, there⟩

/-- No two of them have the same atoms. -/
theorem Of.nodup_keys (h : c.Of met) : (c.pairs.toList.map Pair.key).Nodup := by
  rw [List.nodup_iff_getElem?_ne_getElem?]
  intro i j less inside same
  rw [List.length_map, Array.length_toList] at inside
  have inside' : i < c.pairs.size := less.trans inside
  rw [List.getElem?_map, List.getElem?_map, Array.getElem?_toList, Array.getElem?_toList,
    Array.getElem?_eq_getElem inside, Array.getElem?_eq_getElem inside'] at same
  obtain ⟨count, found⟩ := h.remembered i _ (Array.getElem?_eq_getElem inside')
  obtain ⟨count', found'⟩ := h.remembered j _ (Array.getElem?_eq_getElem inside)
  have atoms : c.pairs[i].atoms = c.pairs[j].atoms := toLex_inj.1 (Option.some.inj same)
  rw [atoms, found'] at found
  cases found
  exact lt_irrefl i less

/-- Sorted, they are the closest images of the groups in their order. -/
theorem Of.sorted_eq (h : c.Of met) :
    c.pairs.toList.mergeSort inOrder = (gather met).map (·.closest) := by
  have increasing : ((gather met).map (·.closest)).Pairwise fun p q => p.key < q.key :=
    List.pairwise_map.2 (pairwise_gather met)
  have same : (c.pairs.toList.mergeSort inOrder).Perm ((gather met).map (·.closest)) := by
    refine (List.mergeSort_perm ..).trans ((List.perm_ext_iff_of_nodup ?_ ?_).2 fun p => h.mem_pairs)
    · exact .of_map _ h.nodup_keys
    · exact increasing.imp fun less => by rintro rfl; exact lt_irrefl _ less
  refine same.eq_of_pairwise (fun p q hp hq le le' => ?_) (pairwise_sorted _)
    (increasing.imp le_of_lt)
  exact List.inj_on_of_nodup_map h.nodup_keys ((List.mergeSort_perm ..).mem_iff.1 hp)
    (h.mem_pairs.2 hq) (le_antisymm le le')

/-- The images of each pair that is remembered are those of a group. -/
theorem Of.groups (h : c.Of met) :
    (c.seen.toList.filterMap fun entry =>
      Images.ofList? (met.filter fun q => q.key = toLex entry.1)).Perm (gather met) := by
  have atoms : ∀ entry ∈ c.seen.toList, ∀ images,
      Images.ofList? (met.filter fun q => q.key = toLex entry.1) = some images →
        images.closest.atoms = entry.1 := by
    rintro ⟨atoms, position, count⟩ hentry images himages
    obtain ⟨p, -, same, found⟩ :=
      h.stored _ _ _ (Std.HashMap.mem_toList_iff_getElem?_eq_some.1 hentry)
    cases himages.symm.trans found
    exact same
  refine (List.perm_ext_iff_of_nodup ?_ ?_).2 fun images => ?_
  · rw [List.Nodup, List.pairwise_filterMap]
    refine Std.HashMap.distinct_keys_toList.imp_of_mem fun {entry other} he ho apart i hi j hj => ?_
    rintro rfl
    rw [← atoms _ he _ hi, atoms _ ho _ hj, beq_self_eq_true] at apart
    cases apart
  · exact (pairwise_gather met).imp fun less => by rintro rfl; exact lt_irrefl _ less
  · rw [List.mem_filterMap, mem_gather]
    constructor
    · rintro ⟨entry, he, himages⟩
      rw [Pair.key, atoms _ he _ himages, himages]
    · intro himages
      obtain ⟨entry, found⟩ := h.noticed _ (closest_mem_of_gather (mem_gather.2 himages))
      exact ⟨(_, entry), Std.HashMap.mem_toList_iff_getElem?_eq_some.2 found, himages⟩

end Collected

/-- What users are told of the images of a pair. -/
def Images.warnings (i : Images α) : List String :=
  NeighborsList.warnings i.closest.first i.closest.second i.count i.closest.distance

theorem except_mapM_eq_filterMap {β γ δ : Type} {f : β → Except Error δ} {g : β → Option γ}
    {h : γ → δ} : ∀ {xs : List β}, (∀ x ∈ xs, ∃ y, g x = some y ∧ f x = .ok (h y)) →
      xs.mapM f = .ok ((xs.filterMap g).map h)
  | [], _ => rfl
  | x :: xs, each => by
    rw [List.forall_mem_cons] at each
    obtain ⟨⟨y, hy, answer⟩, rest⟩ := each
    rw [List.mapM_cons, answer, except_mapM_eq_filterMap rest, List.filterMap_cons_some hy]
    rfl

/-- Each group has its warnings, in whatever order these are come to. -/
theorem Collected.Of.exists_warnings {met : List (Pair α)} {c : Collected α} (h : c.Of met) :
    ∃ texts, c.warnings = .ok texts ∧ texts.Perm ((gather met).map Images.warnings) := by
  refine ⟨_, except_mapM_eq_filterMap ?_, h.groups.map Images.warnings⟩
  rintro ⟨⟨first, second⟩, position, count⟩ hentry
  obtain ⟨p, there, atoms, images⟩ :=
    h.stored _ _ _ (Std.HashMap.mem_toList_iff_getElem?_eq_some.1 hentry)
  cases atoms
  refine ⟨_, images, except_bind_eq_ok.2 ⟨p, ?_, rfl⟩⟩
  rw [elementAt, there]

end Atomistic.NeighborsList
