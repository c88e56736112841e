import Atomistic.Proofs.RealScalar
import Atomistic.Proofs.ExactVector
import Atomistic.Proofs.AccountedCalculation

/-!
# Slopes of sums

The kernel for tests sums up the coordinates of an atom and of its neighbors, which it finds among the
pairs of the atom. Its gradients are ones and zeros, with a row for each atom that some pair of the
system joins with a center. Both look at the same neighbors, if the pairs of an atom are those of the
system that contain it; and they are summed up once each, if no two atoms are paired twice. Then the
gradients are the slopes of the values: a coordinate of a neighbor that is changed changes the values
by as much as the gradients say.
-/

namespace Atomistic

open Traced Systems

variable {σ τ α : Type}

/-! ### Neighbors that are summed up -/

namespace Account

/-- No atom is paired with itself, no two atoms are paired twice, and the pairs of an atom are those
that contain it. -/
structure Contract (a : Account α) : Prop extends a.PairsOnce where
  containing : ∀ atom < a.size, (a.pairsContaining atom).Perm (a.pairs.filter (·.contains atom))

/-- The atoms at the other ends of the pairs of an atom. -/
def others (a : Account α) (center : Nat) : List Nat :=
  (a.pairsContaining center).map (·.other center)

/-- They are the neighbors of the atom, once each. -/
theorem Contract.others {a : Account α} (contract : a.Contract) {center : Nat}
    (hcenter : center < a.size) : (a.others center).Nodup ∧
      ∀ neighbor, neighbor ∈ a.others center ↔ a.Joins center neighbor := by
  have same : (a.others center).Perm ((a.pairs.filter (·.contains center)).map (·.other center)) :=
    (contract.containing center hcenter).map _
  constructor
  · rw [same.nodup_iff]
    exact contract.nodup_others List.filter_sublist fun _ hp => (List.mem_filter.1 hp).2
  · intro neighbor
    simp only [same.mem_iff, List.mem_map, List.mem_filter, joins_iff, and_assoc]

end Account

/-! ### What the kernel gives -/

/-- The label of a direction in a gradient row. -/
def Direction.label : Direction → Int
  | x => 0
  | y => 1
  | z => 2

theorem Direction.label_mem (k : Direction) : k.label ∈ ([0, 1, 2] : List Int) := by
  cases k <;> decide

section Given

variable [Scalar α]

/-- What the kernel for tests fills a descriptor with: its values, and for each atom that a center is
joined with the slopes of these, the same for all atoms and directions. -/
structure DummyKernel.Fills (k : DummyKernel α) (accounts : Nat → Account α) (given : Descriptor α)
    (g : Gradients α) : Prop where
  gradients : given.gradients = some g
  value : ∀ {e f i center : Nat} {feature : DummyFeature},
    given.environments.rows[e]? = some [(i : Int), (center : Int)] →
    (DummyFeature.columns given.features)[f]? = some feature →
    given.values.get? e f = some (k.valueOf (accounts i) center feature)
  row : ∀ {i center neighbor : Nat} {axis : Direction},
    [(i : Int), (center : Int)] ∈ given.environments.rows →
    ([(i : Int), (center : Int), (neighbor : Int), axis.label] ∈ g.labels.rows ↔
      (accounts i).Joins center neighbor)
  slope : ∀ {r f : Nat} {feature : DummyFeature}, r < g.labels.count →
    (DummyFeature.columns given.features)[f]? = some feature →
    g.values.get? r f = some feature.slope

/-- A descriptor that a calculation with gradients gives was filled like this. -/
theorem DummyKernel.fills_of_gives [AtomicSystem σ α] {k : DummyKernel α} {parameters : String}
    {start : Systems σ} {accounts : Nat → Account α} {workers : Workers}
    {samples selected : Selection} {d given : Descriptor α} (slopes : k.gradients = true)
    (valid : (Kernel.dummy k).validate = .ok ()) (kept : Keep k.cutoff start accounts)
    (h : Calculator.gives ⟨.dummy k, parameters⟩ workers ⟨false, samples, selected⟩ start d
      = .ok given) :
    samples.select "environments" (Account.atomTable accounts start.size)
      = .ok given.environments ∧
    selected.select "features" (Kernel.dummy k).featureTable = .ok given.features ∧
    given.environments.rows ⊆ (Account.atomTable accounts start.size).rows ∧
    ∃ g, k.Fills accounts given g := by
  obtain ⟨environments, features, prepared, henvironments, -, sub, hfeatures, -, ready, rfl⟩ :=
    Calculator.given_of_accounts (c := ⟨.dummy k, parameters⟩) kept valid h
  have value {e f i center : Nat} {feature : DummyFeature}
      (hrow : environments.rows[e]? = some [(i : Int), (center : Int)])
      (hfeature : (DummyFeature.columns features)[f]? = some feature) :
      ((Kernel.dummy k).filled accounts prepared).values.get? e f
        = some (k.valueOf (accounts i) center feature) := by
    refine (ready.values_filled hrow ((List.length_map _).trans (List.length_map _))).2 f _ ?_
    exact (List.getElem?_map ..).trans (congrArg (Option.map _) hfeature)
  cases ready with
  | plain without => cases slopes.symm.trans without
  | @withGradients g _ moving =>
    obtain ⟨_, found, -, rows⟩ := moving
    cases found
    have row {i center neighbor : Nat} {axis : Direction}
        (hcenter : [(i : Int), (center : Int)] ∈ environments.rows) :
        [(i : Int), (center : Int), (neighbor : Int), axis.label] ∈ g.rows ↔
          (accounts i).Joins center neighbor := by
      refine (rows _).trans ⟨?_, fun joins => ?_⟩
      · rintro ⟨_, -, atom, depends, label, -, same⟩
        cases depends with
        | neighbor joins =>
          simp only [List.cons_append, List.nil_append, List.cons.injEq, Int.natCast_inj] at same
          obtain ⟨rfl, rfl, rfl, -⟩ := same
          exact joins
      · exact ⟨_, hcenter, neighbor, .neighbor joins, axis.label, axis.label_mem, rfl⟩
    have slope {r f : Nat} {feature : DummyFeature} (hr : r < g.count)
        (hfeature : (DummyFeature.columns features)[f]? = some feature) :
        ((Dense.zeros g.count features.count).write (List.replicate g.count
          ((DummyFeature.columns features).map DummyFeature.slope))).get? r f
            = some (feature.slope : α) := by
      obtain ⟨bound, -⟩ := List.getElem?_eq_some_iff.1 hfeature
      refine Dense.get?_write_zeros hr (bound.trans_eq (List.length_map _))
        (List.getElem?_replicate_of_lt hr) ?_
      rw [List.getElem?_map, hfeature]
      rfl
    exact ⟨henvironments, hfeatures, sub, _, rfl, value, row, slope⟩

end Given

/-! ### Coordinates that are changed -/

variable [ExactField α]

/-- The vector with one of its coordinates changed. -/
def Vector3.shift (v : Vector3 α) (k : Direction) (delta : α) : Vector3 α :=
  ofDirections fun j => if j = k then v.along j + delta else v.along j

theorem total_shift (v : Vector3 α) (k : Direction) (delta : α) :
    DummyKernel.total (v.shift k delta) = DummyKernel.total v + delta := by
  cases k with
  | x =>
    change v.x + delta + v.y + v.z = v.x + v.y + v.z + delta
    ring
  | y =>
    change v.x + (v.y + delta) + v.z = v.x + v.y + v.z + delta
    ring
  | z =>
    change v.x + v.y + (v.z + delta) = v.x + v.y + v.z + delta
    ring

theorem foldl_add_eq_sum {ι : Type} (g : ι → α) (l : List ι) (x : α) :
    l.foldl (fun sum i => sum + g i) x = x + (l.map g).sum := by
  induction l generalizing x with
  | nil => exact (add_zero x).symm
  | cons i l ih => rw [List.foldl_cons, ih, List.map_cons, List.sum_cons, add_assoc]

namespace Account

variable {a : Account α} {atom center : Nat} {k : Direction} {delta : α}

/-- The account of a system after one coordinate of an atom was changed. Its pairs are the same. -/
def shifted (a : Account α) (atom : Nat) (k : Direction) (delta : α) : Account α :=
  { a with
    positions := a.positions.modify atom (·.shift k delta)
    size_positions := Array.size_modify.trans a.size_positions }

theorem total_positionOf_shifted (there : atom < a.size) (i : Nat) :
    DummyKernel.total ((a.shifted atom k delta).positionOf i)
      = if i = atom then DummyKernel.total (a.positionOf i) + delta
        else DummyKernel.total (a.positionOf i) := by
  have place : (a.shifted atom k delta).positionOf i
      = if i = atom then (a.positionOf i).shift k delta else a.positionOf i := by
    rw [positionOf, positionOf, Array.getD_eq_getD_getElem?, Array.getD_eq_getD_getElem?, shifted,
      Array.getElem?_modify]
    by_cases here : i = atom
    · subst here
      rw [if_pos rfl, if_pos rfl, Array.getElem?_eq_getElem (a.size_positions ▸ there)]
      rfl
    · rw [if_neg here, if_neg (Ne.symm here)]
  rw [place]
  split
  · exact total_shift ..
  · rfl

theorem coordinateSum_eq (a : Account α) (center : Nat) :
    a.coordinateSum center = DummyKernel.total (a.positionOf center)
      + ((a.others center).map fun i => DummyKernel.total (a.positionOf i)).sum := by
  rw [others, List.map_map]
  exact foldl_add_eq_sum ..

/-- A changed coordinate of another atom changes a sum as often as this atom is found. -/
theorem coordinateSum_shifted (there : atom < a.size) (differ : center ≠ atom) :
    (a.shifted atom k delta).coordinateSum center
      = a.coordinateSum center + (a.others center).count atom • delta := by
  have changed : ((a.shifted atom k delta).others center).map
      (fun i => DummyKernel.total ((a.shifted atom k delta).positionOf i))
        = (a.others center).map fun i => if i = atom then DummyKernel.total (a.positionOf i) + delta
          else DummyKernel.total (a.positionOf i) :=
    List.map_congr_left fun i _ => total_positionOf_shifted there i
  rw [coordinateSum_eq, coordinateSum_eq, changed, total_positionOf_shifted there, if_neg differ,
    List.sum_map_ite_eq, add_sub_cancel_left]
  ring

end Account

/-- A value changes by as much as its slope says, as often as the atom is found. -/
theorem DummyKernel.valueOf_shifted (k : DummyKernel α) {a : Account α} {atom center : Nat}
    {axis : Direction} {delta : α} (there : atom < a.size) (differ : center ≠ atom)
    (feature : DummyFeature) : k.valueOf (a.shifted atom axis delta) center feature
      = k.valueOf a center feature + (a.others center).count atom • (delta * feature.slope) := by
  cases feature with
  | indexDelta => simp [valueOf, DummyFeature.slope]
  | coordinateSum =>
    simp only [valueOf, DummyFeature.slope, ExactField.one_eq, mul_one]
    exact Account.coordinateSum_shifted there differ

/-! ### Calculations -/

/-- The accounts of some systems before and after a coordinate of an atom of system `i` was changed. -/
structure Account.ShiftedIn (accounts accounts' : Nat → Account α) (count i atom : Nat)
    (axis : Direction) (delta : α) : Prop where
  here : accounts' i = (accounts i).shifted atom axis delta
  elsewhere : ∀ j < count, j ≠ i → accounts' j = accounts j

/-- There are the same atoms as before. -/
theorem Account.ShiftedIn.atomTable_eq {accounts accounts' : Nat → Account α} {count i atom : Nat}
    {axis : Direction} {delta : α} (h : ShiftedIn accounts accounts' count i atom axis delta) :
    atomTable accounts' count = atomTable accounts count := by
  have sizes (j : Nat) (hj : j < count) : (accounts' j).size = (accounts j).size := by
    by_cases at_i : j = i
    · rw [at_i, h.here]
      rfl
    · rw [h.elsewhere j hj at_i]
  refine Labels.ext rfl (List.flatMap_congr fun j hj => ?_)
  rw [sizes j (List.mem_range.1 hj)]

/-- Gradients explain how the value of a feature changes from `x` to `y`: by `delta` times the entry of
a row, if they have it, and not at all if they do not. -/
structure Gradients.Explain (g : Gradients α) (row : List Int) (f : Nat) (delta x y : α) : Prop where
  moved : ∀ r, g.labels.rows[r]? = some row →
    ∃ slope, g.values.get? r f = some slope ∧ y = x + delta * slope
  still : row ∉ g.labels.rows → y = x

/-- Whether there is a row for an atom is the same as whether the atom is summed up, and no atom is
summed up twice. -/
theorem DummyKernel.Fills.explain {k : DummyKernel α} {accounts : Nat → Account α}
    {given : Descriptor α} {g : Gradients α} (h : k.Fills accounts given g) {i atom center e f : Nat}
    {axis : Direction} {delta : α} {feature : DummyFeature} (there : atom < (accounts i).size)
    (hcenter : center < (accounts i).size) (differ : center ≠ atom)
    (contract : (accounts i).Contract)
    (hrow : given.environments.rows[e]? = some [(i : Int), (center : Int)])
    (hfeature : (DummyFeature.columns given.features)[f]? = some feature) :
    g.Explain [(i : Int), (center : Int), (atom : Int), axis.label] f delta
      (k.valueOf (accounts i) center feature)
      (k.valueOf ((accounts i).shifted atom axis delta) center feature) := by
  obtain ⟨nodup, neighbors⟩ := contract.others hcenter
  have joined : [(i : Int), (center : Int), (atom : Int), axis.label] ∈ g.labels.rows ↔
      (accounts i).Joins center atom := h.row (List.mem_of_getElem? hrow)
  rw [k.valueOf_shifted there differ]
  constructor
  · intro r hr
    obtain ⟨bound, -⟩ := List.getElem?_eq_some_iff.1 hr
    have found : atom ∈ (accounts i).others center :=
      (neighbors atom).2 (joined.1 (List.mem_of_getElem? hr))
    refine ⟨feature.slope, h.slope bound hfeature, ?_⟩
    rw [List.count_eq_one_of_mem nodup found, one_nsmul]
  · intro none
    have missing : atom ∉ (accounts i).others center := fun found =>
      none (joined.2 ((neighbors atom).1 found))
    rw [List.count_eq_zero_of_not_mem missing, zero_nsmul, add_zero]

/-- The gradients of the kernel for tests are the slopes of its values. If one coordinate of an atom
is changed, and nothing else, the values of another atom change by as much as its gradients say. All
calculations give descriptors, if the calls are answered and the selections are valid. -/
theorem Calculator.gives_shifted [AtomicSystem σ α] [AtomicSystem τ α] {c : Calculator α}
    {k : DummyKernel α} (kernel : c.kernel = .dummy k) (slopes : k.gradients = true)
    (valid : c.kernel.validate = .ok ()) {before : Systems σ} {after : Systems τ}
    {accounts accounts' : Nat → Account α} {i atom : Nat} {axis : Direction} {delta : α}
    (sizes : after.size = before.size) (kept : Keep k.cutoff before accounts)
    (kept' : Keep k.cutoff after accounts')
    (shifted : Account.ShiftedIn accounts accounts' before.size i atom axis delta)
    (hatom : atom < (accounts i).size) (contract : (accounts i).Contract)
    (workers workers' : Workers) (samples selected : Selection) (d d' : Descriptor α) :
    let environments := Account.atomTable accounts before.size
    let features := (Kernel.dummy k).featureTable
    (Answering k.cutoff before accounts →
      ((∃ given, c.gives workers ⟨false, samples, selected⟩ before d = .ok given) ↔
        samples.Valid environments ∧ selected.Valid features)) ∧
    (Answering k.cutoff after accounts' →
      ((∃ given', c.gives workers' ⟨false, samples, selected⟩ after d' = .ok given') ↔
        samples.Valid environments ∧ selected.Valid features)) ∧
    ∀ given given', c.gives workers ⟨false, samples, selected⟩ before d = .ok given →
      c.gives workers' ⟨false, samples, selected⟩ after d' = .ok given' →
      samples.select "environments" environments = .ok given.environments ∧
      selected.select "features" features = .ok given.features ∧
      given'.environments = given.environments ∧ given'.features = given.features ∧
      ∃ g, given.gradients = some g ∧ ∀ e f center : Nat,
        given.environments.rows[e]? = some [(i : Int), (center : Int)] → center ≠ atom →
        f < given.features.count → ∃ x y, given.values.get? e f = some x ∧
          given'.values.get? e f = some y ∧
          g.Explain [(i : Int), (center : Int), (atom : Int), axis.label] f delta x y := by
  obtain ⟨_, parameters⟩ := c
  cases kernel
  have same : Account.atomTable accounts' after.size = Account.atomTable accounts before.size :=
    sizes ▸ shifted.atomTable_eq
  refine ⟨fun answering => exists_gives_iff kept valid answering, fun answering => ?_, ?_⟩
  · rw [← same]
    exact exists_gives_iff kept' valid answering
  intro given given' hgiven hgiven'
  obtain ⟨henvironments, hfeatures, sub, g, filled⟩ := k.fills_of_gives slopes valid kept hgiven
  obtain ⟨henvironments', hfeatures', -, g', filled'⟩ :=
    k.fills_of_gives slopes valid kept' hgiven'
  rw [same, henvironments] at henvironments'
  rw [hfeatures] at hfeatures'
  have environments_eq := (Except.ok.inj henvironments').symm
  have features_eq := (Except.ok.inj hfeatures').symm
  refine ⟨henvironments, hfeatures, environments_eq, features_eq, g, filled.gradients, ?_⟩
  intro e f center hrow differ hf
  obtain ⟨_, -, _, hcenter, same⟩ := Account.mem_atomTable.1 (sub (List.mem_of_getElem? hrow))
  simp only [List.cons.injEq, Int.natCast_inj, and_true] at same
  obtain ⟨rfl, rfl⟩ := same
  have column : ∃ feature, (DummyFeature.columns given.features)[f]? = some feature :=
    ⟨_, List.getElem?_eq_getElem (hf.trans_eq (List.length_map _).symm)⟩
  obtain ⟨feature, hfeature⟩ := column
  have changed := filled'.value (environments_eq.symm ▸ hrow) (features_eq.symm ▸ hfeature)
  rw [shifted.here] at changed
  exact ⟨_, _, filled.value hrow hfeature, changed,
    filled.explain hatom hcenter differ contract hrow hfeature⟩

/-! ### Recorded systems -/

namespace RecordedSystem

/-- The record with one coordinate of an atom changed, and the same pairs. -/
def shifted (s : RecordedSystem α) (atom : Nat) (axis : Direction) (delta : α) : RecordedSystem α :=
  { s with positions := s.positions.modify atom (·.shift axis delta) }

theorem Sound.shifted {s : RecordedSystem α} (sound : s.Sound) (atom : Nat) (axis : Direction)
    (delta : α) : (s.shifted atom axis delta).Sound :=
  { sound with size_positions := Array.size_modify.trans sound.size_positions }

omit [ExactField α] in
/-- Distributed pairs are the pairs of each atom. -/
theorem getD_distribute {size atom : Nat} (there : atom < size) (pairs : List (Pair α)) :
    (distribute size pairs).getD atom [] = pairs.filter (·.contains atom) := by
  rw [Array.getD_eq_getD_getElem?, distribute, Array.getElem?_ofFn, dif_pos there]
  rfl

end RecordedSystem

/-- Three atoms around a corner, each of them paired with the next one. -/
noncomputable def corner : RecordedSystem ℝ :=
  let pairs : List (Pair ℝ) := [⟨0, 1, ⟨1, 0, 0⟩⟩, ⟨1, 2, ⟨0, 1, 0⟩⟩]
  { size := 3
    species := #[1, 1, 1]
    positions := #[⟨0, 0, 0⟩, ⟨1, 0, 0⟩, ⟨1, 1, 0⟩]
    cell := .infinite
    pairs := pairs
    pairsContaining := RecordedSystem.distribute 3 pairs
    refused := []
    cutoffs := #[] }

theorem sound_corner : corner.Sound := by
  have pairs_lt : ∀ p ∈ corner.pairs, p.first < 3 ∧ p.second < 3 := by simp [corner]
  refine ⟨(by decide : 3 ≤ maxLabel), rfl, rfl, Array.size_ofFn, ?_, pairs_lt, fun ps hps p hp => ?_⟩
  · simp [corner, maxLabel]
  · obtain ⟨atom, rfl⟩ := Array.mem_ofFn.1 hps
    exact pairs_lt p (List.mem_filter.1 hp).1

theorem contract_corner : (corner.account sound_corner).Contract where
  apart := by simp [RecordedSystem.account, corner]
  once := by simp [RecordedSystem.account, corner]
  containing _ there := .of_eq (RecordedSystem.getD_distribute there corner.pairs)

/-- The first atom has the second one as a neighbor. If this is moved to the side, the sum of the
first one grows by as much. -/
theorem gives_shifted_corner :
    let c : Calculator ℝ := ⟨.dummy ⟨3 / 2, 0, "", true⟩, ""⟩
    let aside := corner.shifted 1 .y (1 / 2)
    ∃ given given' e x, c.gives .inOrder .all #[corner] .new = .ok given ∧
      c.gives .inOrder .all #[aside] .new = .ok given' ∧ given.environments.rows[e]? = some [0, 0] ∧
      given.values.get? e 1 = some x ∧ given'.values.get? e 1 = some (x + 1 / 2) := by
  intro c aside
  have valid : c.kernel.validate = .ok () :=
    if_pos (ExactField.isPositiveFinite_eq (by norm_num : (0 : ℝ) < 3 / 2))
  have sound := sound_corner.shifted 1 .y (1 / 2)
  have kept : Keep c.kernel.cutoff #[corner] fun _ => corner.account sound_corner :=
    keep_recorded sound_corner _
  have kept' : Keep c.kernel.cutoff #[aside] fun _ => aside.account sound := keep_recorded sound _
  have shifted : Account.ShiftedIn (fun _ => corner.account sound_corner) (fun _ => aside.account sound)
      1 0 1 .y (1 / 2) := ⟨rfl, fun j hj away => absurd (Nat.lt_one_iff.1 hj) away⟩
  have sizes : (#[aside] : Systems _).size = (#[corner] : Systems _).size := rfl
  obtain ⟨total, total', slopes⟩ := c.gives_shifted (k := ⟨3 / 2, 0, "", true⟩) rfl rfl valid sizes
    kept kept' shifted (by decide : 1 < 3) contract_corner .inOrder .inOrder .all .all .new .new
  obtain ⟨given, hgiven⟩ := (total (answering_recorded sound_corner rfl _)).2 ⟨trivial, trivial⟩
  obtain ⟨given', hgiven'⟩ := (total' (answering_recorded sound rfl _)).2 ⟨trivial, trivial⟩
  obtain ⟨environments, features, -, -, g, gradients, explained⟩ :=
    slopes given given' hgiven hgiven'
  have environments_eq := (Except.ok.inj environments).symm
  have features_eq := (Except.ok.inj features).symm
  have here : given.environments.rows[0]? = some [((0 : Nat) : Int), ((0 : Nat) : Int)] := by
    rw [environments_eq]
    rfl
  have two : 1 < given.features.count := by
    rw [features_eq]
    decide
  obtain ⟨x, y, hx, hy, explain⟩ := explained 0 1 0 here (by decide) two
  refine ⟨given, given', 0, x, hgiven, hgiven', here, hx, hy.trans (congrArg some ?_)⟩
  obtain ⟨-, -, -, _, filled⟩ := DummyKernel.fills_of_gives rfl valid kept hgiven
  cases gradients.symm.trans filled.gradients
  have joins : (corner.account sound_corner).Joins 0 1 :=
    ⟨⟨0, 1, ⟨1, 0, 0⟩⟩, List.mem_cons_self, .inl rfl⟩
  have row := (@filled.row 0 0 1 .y (List.mem_of_getElem? here)).2 joins
  obtain ⟨r, hr⟩ := List.mem_iff_getElem?.1 row
  obtain ⟨slope, hslope, grown⟩ := explain.moved r hr
  have columns : (DummyFeature.columns given.features)[1]? = some .coordinateSum := by
    rw [features_eq]
    rfl
  have one : slope = 1 := by
    rw [filled.slope (List.getElem?_eq_some_iff.1 hr).1 columns] at hslope
    exact (Option.some.inj hslope).symm.trans ExactField.one_eq
  rw [grown, one, mul_one]

end Atomistic
