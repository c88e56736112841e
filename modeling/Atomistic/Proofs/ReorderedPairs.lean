import Atomistic.Proofs.NeighborDistances
import Atomistic.Proofs.Tandem

/-!
# Pairs in another order

Systems are free to give their pairs in any order, and each pair from either of its ends. Both ends of
all pairs are looked at wherever pairs are used, so that only the order of what is found can depend on
this; and rows of tables form sets, and distances are sorted in the end. Hence tables of environments
and of gradients, and sorted distances, are the same for all orders.
-/

namespace Atomistic

open Traced Systems

variable {σ τ α β : Type} [Scalar α]

/-! ### Pairs -/

theorem elementAt_cases (xs : Array β) (i : Nat) :
    (∃ x, elementAt xs i = .ok x) ∨ elementAt xs i = .error (.panic .unspecified) := by
  cases h : xs[i]? with
  | some x => exact .inl ⟨x, elementAt_of_some h⟩
  | none => exact .inr (elementAt_of_none h)

/-- The same two atoms at the same distance, seen from one end or the other. -/
structure Pair.Alike (p q : Pair α) : Prop where
  ends : s(p.first, p.second) = s(q.first, q.second)
  distance : p.distance = q.distance

/-- The same pairs in any order, each of them seen from one end or the other. -/
def Reordered (ps qs : List (Pair α)) : Prop :=
  ∃ turned, ps.Perm turned ∧ List.Forall₂ Pair.Alike turned qs

theorem Pair.Alike.cases {p q : Pair α} (h : p.Alike q) :
    q.first = p.first ∧ q.second = p.second ∨ q.first = p.second ∧ q.second = p.first := by
  rcases Sym2.eq_iff.1 h.ends with ⟨first, second⟩ | ⟨first, second⟩
  · exact .inl ⟨first.symm, second.symm⟩
  · exact .inr ⟨second.symm, first.symm⟩

/-- An entry from each end of a pair: made of the atom at this end and its species, the atom at the
other end and its species, and the distance. -/
def Pair.bothEnds (species : Array Int) (entry : Nat → Int → Nat → Int → α → β) (p : Pair α) :
    Except Error (List β) := do
  let first ← elementAt species p.first
  let second ← elementAt species p.second
  return [entry p.first first p.second second p.distance,
    entry p.second second p.first first p.distance]

namespace Reordered

variable {ps qs : List (Pair α)}

/-- What is gathered from pairs has another order only. -/
theorem gather {f : Pair α → Except Error (List β)} (fault : Error)
    (only : ∀ p e, f p = .error e → e = fault)
    (alike : ∀ p q, p.Alike q → Parallel List.Perm (f p) (f q)) (h : Reordered ps qs) :
    Parallel List.Perm (do return (← ps.mapM f).flatten) (do return (← qs.mapM f).flatten) := by
  obtain ⟨turned, order, ends⟩ := h
  have first : Parallel List.Perm (do return (← ps.mapM f).flatten : Except Error (List β))
      (do return (← turned.mapM f).flatten) :=
    (Parallel.mapM_perm only order).bind fun _ _ same => .answers same.flatten
  have second : Parallel List.Perm (do return (← turned.mapM f).flatten : Except Error (List β))
      (do return (← qs.mapM f).flatten) :=
    (Parallel.mapM ends alike).bind fun _ _ same => .answers (List.Perm.flatten_congr same)
  exact first.trans List.Perm.trans second

theorem flatMap {f : Pair α → List β} (alike : ∀ p q, p.Alike q → (f p).Perm (f q))
    (h : Reordered ps qs) : (ps.flatMap f).Perm (qs.flatMap f) := by
  obtain ⟨turned, order, ends⟩ := h
  refine (order.flatMap_right f).trans ?_
  rw [List.flatMap_def, List.flatMap_def]
  refine List.Perm.flatten_congr ?_
  rw [List.forall₂_map_left_iff, List.forall₂_map_right_iff]
  exact ends.imp alike

/-- Entries from both ends of pairs have another order only. If atoms have no species, it makes no
difference which of them is looked up first. -/
theorem bothEnds (entry : Nat → Int → Nat → Int → α → β) (species : Array Int)
    (h : Reordered ps qs) :
    Parallel List.Perm (do return (← ps.mapM (Pair.bothEnds species entry)).flatten)
      (do return (← qs.mapM (Pair.bothEnds species entry)).flatten) := by
  refine h.gather (.panic .unspecified) (fun p e failed => ?_) fun p q alike => ?_
  · rw [Pair.bothEnds] at failed
    rcases elementAt_cases species p.first with ⟨first, hfirst⟩ | hfirst <;>
      rcases elementAt_cases species p.second with ⟨second, hsecond⟩ | hsecond <;>
        rw [hfirst, hsecond] at failed <;> cases failed <;> rfl
  · rw [Pair.bothEnds, Pair.bothEnds, alike.distance]
    rcases alike.cases with ⟨first, second⟩ | ⟨first, second⟩ <;> rw [first, second]
    · exact (Parallel.refl _).imp fun _ _ same => same ▸ .refl _
    · rcases elementAt_cases species p.first with ⟨first, hfirst⟩ | hfirst <;>
        rcases elementAt_cases species p.second with ⟨second, hsecond⟩ | hsecond <;>
          rw [hfirst, hsecond]
      · exact .answers (.swap ..)
      all_goals exact .fails _

theorem orientedPairs (species : Array Int) (h : Reordered ps qs) :
    Parallel List.Perm (orientedPairs species ps) (orientedPairs species qs) :=
  h.bothEnds (fun center alpha neighbor beta _ => ((center, alpha, beta), neighbor)) species

theorem orientedDistances (species : Array Int) (h : Reordered ps qs) :
    Parallel List.Perm (Shells.orientedDistances species ps)
      (Shells.orientedDistances species qs) := by
  -- here the species of the second atom is looked up first
  have read (pairs : List (Pair α)) : Shells.orientedDistances species pairs = do
      return (← pairs.mapM (Pair.bothEnds species fun center _ _ beta d =>
        ((center, beta), d))).flatten := by
    rw [Shells.orientedDistances]
    refine congrArg (· >>= _) (except_mapM_congr fun p _ => ?_)
    rw [Pair.bothEnds]
    rcases elementAt_cases species p.first with ⟨first, hfirst⟩ | hfirst <;>
      rcases elementAt_cases species p.second with ⟨second, hsecond⟩ | hsecond <;>
        rw [hfirst, hsecond] <;> rfl
  rw [read, read]
  exact h.bothEnds _ species

end Reordered

/-! ### Systems -/

/-- Related systems tell the same sizes and species, and the same pairs in any order. Having neighbors
computed, they fail alike or are related again. -/
structure Reordering [AtomicSystem σ α] [AtomicSystem τ α] (rel : σ → τ → Prop) : Prop where
  size : ∀ s t, rel s t → AtomicSystem.size s = AtomicSystem.size t
  species : ∀ s t, rel s t → AtomicSystem.species s = AtomicSystem.species t
  pairs : ∀ s t, rel s t → Parallel Reordered (AtomicSystem.pairs s) (AtomicSystem.pairs t)
  computeNeighbors : ∀ cutoff : α, Tandem rel Eq (AtomicSystem.computeNeighbors cutoff)
    (AtomicSystem.computeNeighbors cutoff)

theorem sortedRows_eq_of_perm {rows rows' : List (List Int)} (h : rows.Perm rows') :
    sortedRows rows = sortedRows rows' :=
  sortedRows_eq (pairwise_sortedRows rows') fun _ => h.mem_iff.trans mem_sortedRows.symm

namespace Reordering

section Tables

variable [AtomicSystem σ α] [AtomicSystem τ α] {rel : σ → τ → Prop} (h : Reordering rel)
include h

theorem kept : KeptBesidesPairs fun _ (m : Traced (Systems σ) _) (n : Traced (Systems τ) _) =>
    Tandem (Pointwise rel) Eq m n where
  ofExcept x := tandem_ofExcept (.refl x)
  bind := tandem_same_bind
  value_bind rest := tandem_value_bind fun v w _ => rest v w
  log _ _ _ _ := tandem_log
  within _ := tandem_within
  numbers := tandem_numbers
  size := tandem_atIndex (tandem_ask fun s t related => h.size s t related ▸ .refl _)
  species := tandem_atIndex (tandem_ask fun s t related => h.species s t related ▸ .refl _)
  computeNeighbors cutoff := tandem_atIndex (h.computeNeighbors cutoff)

theorem tandem_pairs (i : Nat) : Tandem (Pointwise rel) Reordered
    (Systems.ask i AtomicSystem.pairs : Traced (Systems σ) _)
    (Systems.ask i AtomicSystem.pairs : Traced (Systems τ) _) :=
  tandem_atIndex (tandem_ask h.pairs) i

/-! ### Tables -/

theorem atomSpeciesRows (cutoff : α) (includesSelf : Bool) (i : Nat) :
    Tandem (Pointwise rel) List.Perm (Strategy.atomSpeciesRows cutoff includesSelf i)
      (Strategy.atomSpeciesRows cutoff includesSelf i) := by
  refine tandem_same_bind (h.kept.computeNeighbors cutoff i) fun _ => ?_
  refine tandem_same_bind (h.kept.species i) fun species => ?_
  refine tandem_bind (h.tandem_pairs i) fun ps qs reordered => ?_
  refine tandem_bind (tandem_ofExcept (reordered.orientedPairs species)) fun _ _ same => ?_
  refine tandem_pure (List.Perm.map _ ?_)
  split
  · exact (same.map _).append_right _
  · exact same.map _

theorem environments (s : Strategy α) : Tandem (Pointwise rel) Eq
    (s.environments : Traced (Systems σ) _) (s.environments : Traced (Systems τ) _) := by
  refine h.kept.environments s fun cutoff includesSelf => ?_
  have rows : Tandem (Pointwise rel) List.Perm
      (Strategy.rowsOfAll (Strategy.atomSpeciesRows cutoff includesSelf))
      (Strategy.rowsOfAll (Strategy.atomSpeciesRows cutoff includesSelf)) := by
    refine tandem_same_bind h.kept.numbers fun numbers => ?_
    exact tandem_bind (tandem_mapM (h.atomSpeciesRows cutoff includesSelf) numbers) fun _ _ same =>
      tandem_pure (List.Perm.flatten_congr same)
  exact tandem_bind rows fun _ _ same => tandem_pure (sortedRows_eq_of_perm same)

theorem atomGradients (cutoff : α) (environments : Labels) (system : Int) :
    Tandem (Pointwise rel) List.Perm (Strategy.atomGradients cutoff environments system)
      (Strategy.atomGradients cutoff environments system) := by
  refine tandem_same_bind (h.kept.ofExcept _) fun i => ?_
  refine tandem_same_bind (h.kept.computeNeighbors cutoff i) fun _ => ?_
  refine tandem_same_bind (h.kept.ofExcept _) fun centers => ?_
  refine tandem_bind (h.tandem_pairs i) fun ps qs reordered => tandem_pure ?_
  refine ((reordered.flatMap fun p q alike => ?_).filter _).map _
  rw [Pair.atoms, Pair.atoms]
  rcases alike.cases with ⟨first, second⟩ | ⟨first, second⟩
  · rw [first, second]
  · rw [first, second]
    exact .swap ..

theorem atomSpeciesGradients (cutoff : α) (environments : Labels) (system : Int) :
    Tandem (Pointwise rel) List.Perm (Strategy.atomSpeciesGradients cutoff environments system)
      (Strategy.atomSpeciesGradients cutoff environments system) := by
  refine tandem_same_bind (h.kept.ofExcept _) fun i => ?_
  refine tandem_same_bind (h.kept.computeNeighbors cutoff i) fun _ => ?_
  refine tandem_same_bind (h.kept.species i) fun species => ?_
  refine tandem_same_bind (h.kept.ofExcept _) fun centers => ?_
  refine tandem_bind (h.tandem_pairs i) fun ps qs reordered => ?_
  refine tandem_bind (tandem_ofExcept (reordered.orientedPairs species)) fun _ _ same => ?_
  exact tandem_pure ((same.filter _).map _)

theorem sortedBySystem (environments : Labels) {rows : Int → Traced (Systems σ) (List (List Int))}
    {rows' : Int → Traced (Systems τ) (List (List Int))}
    (each : ∀ i, Tandem (Pointwise rel) List.Perm (rows i) (rows' i)) :
    Tandem (Pointwise rel) Eq (Strategy.sortedBySystem environments rows)
      (Strategy.sortedBySystem environments rows') := by
  refine tandem_same_bind (h.kept.ofExcept _) fun systems => ?_
  refine tandem_bind (tandem_mapM each systems) fun _ _ same => tandem_pure ?_
  exact sortedRows_eq_of_perm (List.Perm.flatten_congr same)

theorem gradientsFor (s : Strategy α) (environments : Labels) : Tandem (Pointwise rel) Eq
    (s.gradientsFor environments : Traced (Systems σ) _)
    (s.gradientsFor environments : Traced (Systems τ) _) :=
  h.kept.gradientsFor s environments
    (fun cutoff => h.sortedBySystem environments (h.atomGradients cutoff environments))
    fun cutoff => h.sortedBySystem environments (h.atomSpeciesGradients cutoff environments)

end Tables

end Reordering

/-! ### Distances -/

/-- Sorting forgets in which order distances were gathered. -/
theorem Shells.sorted_gather_eq {distances distances' : List ((Nat × Int) × Float)}
    (h : distances.Perm distances') : (gather distances).sorted = (gather distances').sorted := by
  funext center species
  rw [sorted, sorted, getD_gather, getD_gather]
  refine Binary64.mergeSort_eq_of_perm ?_
  exact (List.reverse_perm _).trans (((h.filter _).map _).trans (List.reverse_perm _).symm)

/-- Distances that were found for systems one after the other are read alike, if they are sorted
alike. -/
theorem Shells.sorted_ofList_eq {shells shells' : List (Nat × Shells Float)}
    (h : List.Forall₂ (fun x y => x.1 = y.1 ∧ x.2.sorted = y.2.sorted) shells shells') (i : Nat) :
    ((Std.HashMap.ofList shells).getD i ∅).sorted
      = ((Std.HashMap.ofList shells').getD i ∅).sorted := by
  rw [Std.HashMap.ofList_eq_insertMany_empty, Std.HashMap.ofList_eq_insertMany_empty]
  suffices general : ∀ found found' : Std.HashMap Nat (Shells Float),
      (∀ i, (found.getD i ∅).sorted = (found'.getD i ∅).sorted) →
      ((found.insertMany shells).getD i ∅).sorted = ((found'.insertMany shells').getD i ∅).sorted from
    general ∅ ∅ fun _ => rfl
  induction h with
  | nil => exact fun _ _ same => same i
  | @cons x y _ _ here _ ih =>
    intro found found' same
    rw [Std.HashMap.insertMany_cons, Std.HashMap.insertMany_cons]
    refine ih _ _ fun j => ?_
    rw [Std.HashMap.getD_insert, Std.HashMap.getD_insert, here.1]
    split
    · exact here.2
    · exact same j

namespace Reordering

variable [AtomicSystem σ Float] [AtomicSystem τ Float] {rel : σ → τ → Prop} (h : Reordering rel)
include h

theorem shells (k : SortedDistances Float) (i : Nat) :
    Tandem (Pointwise rel) (fun x y => x.sorted = y.sorted)
      (k.shells i : Traced (Systems σ) _) (k.shells i : Traced (Systems τ) _) := by
  refine tandem_same_bind (h.kept.computeNeighbors k.cutoff i) fun _ => ?_
  refine tandem_same_bind (h.kept.species i) fun species => ?_
  refine tandem_bind (h.tandem_pairs i) fun ps qs reordered => ?_
  refine tandem_bind (tandem_ofExcept (reordered.orientedDistances species)) fun _ _ same => ?_
  exact tandem_pure (Shells.sorted_gather_eq same)

theorem sortedDistances (k : SortedDistances Float) (environments features : Labels) :
    Tandem (Pointwise rel) Eq (k.values environments features : Traced (Systems σ) _)
      (k.values environments features : Traced (Systems τ) _) := by
  refine tandem_within (tandem_same_bind (h.kept.ofExcept _) fun requested => ?_)
  refine tandem_same_bind (h.kept.ofExcept _) fun systems => ?_
  have each (i : Nat) : Tandem (Pointwise rel) (fun x y => x.1 = y.1 ∧ x.2.sorted = y.2.sorted)
      (do return (i, ← k.shells i) : Traced (Systems σ) _)
      (do return (i, ← k.shells i) : Traced (Systems τ) _) :=
    tandem_bind (h.shells k i) fun _ _ same => tandem_pure ⟨rfl, same⟩
  refine tandem_bind (tandem_mapM each systems) fun shells shells' same => ?_
  have rows : k.row (Std.HashMap.ofList shells) features
      = k.row (Std.HashMap.ofList shells') features := by
    funext environment
    simp only [SortedDistances.row, Shells.sorted_ofList_eq same]
  rw [rows]
  exact h.kept.ofExcept _

/-- Independence from the order and the ends of pairs. On systems that differ in these only, as far as
sizes, species and pairs go, calculations of sorted distances that use the pairs of the systems give
the same for all selections, an error or a descriptor; and tables of environments and of their
gradients are the same, for all strategies. -/
theorem distances_and_tables_eq {xs : Systems σ} {ys : Systems τ} (related : Pointwise rel xs ys) :
    (∀ (c : Calculator Float) (k : SortedDistances Float), c.kernel = .sortedDistances k →
      ∀ (workers : Workers) (samples features : Selection) (d d' : Descriptor Float),
        c.gives workers ⟨false, samples, features⟩ xs d
          = c.gives workers ⟨false, samples, features⟩ ys d') ∧
    ∀ s : Strategy Float,
      (s.environments.outcome xs).1 = (s.environments.outcome ys).1 ∧
      (s.withGradients.outcome xs).1 = (s.withGradients.outcome ys).1 ∧
      ∀ selected, ((s.gradientsFor selected).outcome xs).1
        = ((s.gradientsFor selected).outcome ys).1 := by
  refine ⟨fun c k kernel workers samples features d d' => ?_, fun s => ⟨?_, ?_, fun selected => ?_⟩⟩
  · have ready := h.kept.ready c (h.environments _) (h.gradientsFor _) samples features
    refine Calculator.gives_eq_of_tandem ready (fun prepared => ?_) related d d'
    rw [kernel]
    exact h.kept.bind (h.sortedDistances k _ _) fun _ => h.kept.answer _
  · exact (h.environments s).outcome_eq related
  · have both := h.kept.bind (h.environments s) fun found =>
      h.kept.bind (h.gradientsFor s found) fun gradients => h.kept.answer (found, gradients)
    exact both.outcome_eq related
  · exact (h.gradientsFor s selected).outcome_eq related

end Reordering

/-! ### Recorded systems -/

/-- Records that differ in their pairs by their order and their ends only. -/
structure RecordedSystem.Turned (s t : RecordedSystem α) : Prop where
  size : s.size = t.size
  species : s.species = t.species
  refused : s.refused = t.refused
  pairs : Reordered s.pairs t.pairs

omit [Scalar α] in
theorem RecordedSystem.parallel_reply {s t : RecordedSystem α} {post : β → β → Prop} {b c : β}
    (refused : s.refused = t.refused) (request : Request) (h : post b c) :
    Parallel post (s.reply request b) (t.reply request c) := by
  rw [reply, reply, refused]
  split
  · exact .fails _
  · exact .answers h

theorem reordering_turned :
    Reordering (RecordedSystem.Turned : RecordedSystem α → RecordedSystem α → Prop) where
  size s t h := by
    change s.reply .size s.size = t.reply .size t.size
    rw [RecordedSystem.reply, RecordedSystem.reply, h.refused, h.size]
  species s t h := by
    change s.reply .species s.species = t.reply .species t.species
    rw [RecordedSystem.reply, RecordedSystem.reply, h.refused, h.species]
  pairs s t h := RecordedSystem.parallel_reply h.refused .pairs h.pairs
  computeNeighbors cutoff s t h := by
    have asked := RecordedSystem.parallel_reply h.refused .computeNeighbors (Eq.refl ())
    have after : RecordedSystem.Turned { s with cutoffs := s.cutoffs.push cutoff }
        { t with cutoffs := t.cutoffs.push cutoff } := ⟨h.size, h.species, h.refused, h.pairs⟩
    exact tandem_ofExcept asked _ _ after

/-- The triangle, with its pairs in another order and two of them seen from the other end. -/
def turnedTriangle : RecordedSystem Float :=
  let pairs : List (Pair Float) := [⟨2, 0, ⟨0, -4, 0⟩⟩, ⟨0, 1, ⟨3, 0, 0⟩⟩, ⟨2, 1, ⟨3, -4, 0⟩⟩]
  { triangle with pairs := pairs, pairsContaining := RecordedSystem.distribute 3 pairs }

/-- Both triangles have the same sorted distances and the same tables. -/
theorem distances_and_tables_eq_triangle :
    let c : Calculator Float := ⟨.sortedDistances ⟨6, 3⟩, ""⟩
    (∃ given, c.gives .inOrder .all #[triangle] .new = .ok given ∧
      c.gives .inOrder .all #[turnedTriangle] .new = .ok given) ∧
    ((Strategy.atoms 6).withGradients.outcome #[triangle]).1
      = ((Strategy.atoms 6).withGradients.outcome #[turnedTriangle]).1 := by
  intro c
  have turned : triangle.Turned turnedTriangle :=
    ⟨rfl, rfl, rfl, [⟨0, 2, ⟨0, 4, 0⟩⟩, ⟨0, 1, ⟨3, 0, 0⟩⟩, ⟨1, 2, ⟨-3, 4, 0⟩⟩], by decide +kernel,
      .cons ⟨Sym2.eq_swap, by decide +kernel⟩ (.cons ⟨rfl, rfl⟩
        (.cons ⟨Sym2.eq_swap, by decide +kernel⟩ .nil))⟩
  have related : Pointwise RecordedSystem.Turned #[triangle] #[turnedTriangle] := by
    refine ⟨rfl, fun i hx _ => ?_⟩
    cases Nat.lt_one_iff.1 hx
    exact turned
  obtain ⟨same, tables⟩ := reordering_turned.distances_and_tables_eq related
  have answered : ∃ given, c.gives .inOrder .all #[triangle] .new = .ok given :=
    (c.exists_gives_iff (keep_recorded sound_triangle 6) (by decide +kernel)
      (answering_recorded sound_triangle rfl 6)).2 ⟨trivial, trivial⟩
  obtain ⟨given, hgiven⟩ := answered
  exact ⟨⟨given, hgiven, (same c ⟨6, 3⟩ rfl .inOrder .all .all .new .new).symm.trans hgiven⟩,
    (tables (.atoms 6)).2.1⟩

end Atomistic
