import Atomistic.Foreign.Forwarding
import Atomistic.Proofs.MirroredCalculation

/-!
# What callbacks tell

A callback tells something if it is there, if it answers that it succeeded, and if it does not leave
a null pointer in the place of items. The species and the positions also need to be told how many
atoms there are. Any other system stands for one behind callbacks when it gives the same data
wherever callbacks tell something, and fails with a system error wherever they do not. A calculation
can not tell the two apart.
-/

namespace Atomistic.Foreign

open Traced

variable {σ τ α β ι : Type}

/-! ### Data that is told -/

/-- What a callback tells about its input. -/
def heard (callback : Option (ι → Answer β)) (input : ι) : Option β := do
  let answer := (← callback) input
  if answer.status = .success then some answer.value else none

/-- The items of a block, if they are told. -/
def Block.told? (b : Block β) : Option (List β) :=
  if b.count = 0 then some [] else b.items.map (·.take b.count)

namespace ForeignSystem

variable (s : ForeignSystem σ α)

/-- The number of atoms, if it is told. -/
def sizeTold : Option Nat := heard s.callbacks.size s.data

/-- Data with one item for each atom, if it is told together with their number. -/
def perAtomTold (callback : Option (σ → Answer (Option (List β)))) : Option (Array β) := do
  let items ← heard callback s.data
  return (← (Block.mk items (← s.sizeTold)).told?).toArray

/-- The pairs, if they are told. -/
def pairsTold : Option (List (Pair α)) := do (← heard s.callbacks.pairs s.data).told?

/-- The pairs of an atom, if they are told. -/
def pairsContainingTold (atom : Nat) : Option (List (Pair α)) := do
  (← heard s.callbacks.pairsContaining (s.data, atom)).told?

/-- The system after its callback computed neighbors, if it did. -/
def afterNeighbors (cutoff : α) : Option (ForeignSystem σ α) := do
  let (answer, _) := (← s.callbacks.computeNeighbors) cutoff s.data
  if answer.status = .success then some { s with data := answer.value } else none

end ForeignSystem

/-- The answer is what is told. Where nothing is told it is, strictly, a system error. -/
def Gives (strict : Prop) (told : Option β) (answer : Except Error β) : Prop :=
  match told with
  | some b => answer = .ok b
  | none => strict → SystemFails answer

/-- Systems that stand for those behind callbacks which `rel` relates them to: they give what is
told, and after neighbors were computed they do so again. -/
structure StandsFor (strict : Prop) [AtomicSystem τ α] (rel : ForeignSystem σ α → τ → Prop) :
    Prop where
  size : ∀ s t, rel s t → Gives strict s.sizeTold (AtomicSystem.size t)
  species : ∀ s t, rel s t →
    Gives strict (s.perAtomTold s.callbacks.species) (AtomicSystem.species t)
  positions : ∀ s t, rel s t →
    Gives strict (s.perAtomTold s.callbacks.positions) (AtomicSystem.positions t)
  pairs : ∀ s t, rel s t → Gives strict s.pairsTold (AtomicSystem.pairs t)
  pairsContaining : ∀ s t, rel s t → ∀ atom,
    Gives strict (s.pairsContainingTold atom) (AtomicSystem.pairsContaining t atom)
  neighbors : ∀ s t, rel s t → ∀ cutoff s', s.afterNeighbors cutoff = some s' →
    Ensures (AtomicSystem.computeNeighbors cutoff) t fun answer t' => answer = .ok () ∧ rel s' t'
  noNeighbors : strict → ∀ s t, rel s t → ∀ cutoff, s.afterNeighbors cutoff = none →
    Ensures (AtomicSystem.computeNeighbors cutoff) t fun answer _ => SystemFails answer

/-! ### Answers of callbacks -/

section Answers

variable {γ : Type} {strict : Prop}

theorem gives_bind {told : Option β} {answer : Except Error β} {f : β → Option γ}
    {g : β → Except Error γ} (h : Gives True told answer) (rest : ∀ b, Gives True (f b) (g b)) :
    Gives True (told >>= f) (answer >>= g) := by
  cases told with
  | some b =>
    obtain rfl : answer = .ok b := h
    exact rest b
  | none =>
    intro _
    exact SystemFails.bind (h trivial) g

theorem gives_some (b : β) : Gives strict (some b) (.ok b) := rfl

theorem gives_call (name : String) (callback : Option (ι → Answer β)) (input : ι) :
    Gives True (heard callback input) (call name callback input) := by
  cases callback with
  | none => exact fun _ => ⟨_, rfl⟩
  | some callback =>
    change Gives True (if (callback input).status = .success then _ else _)
      (checkStatus name (callback input).status >>= fun _ => .ok (callback input).value)
    rw [checkStatus]
    split
    · exact gives_some _
    · exact fun _ => ⟨_, rfl⟩

theorem gives_get (name : String) (b : Block β) : Gives True b.told? (b.get name) := by
  rw [Block.told?, Block.get]
  split
  · exact gives_some []
  · cases b.items with
    | some items => exact gives_some _
    | none => exact fun _ => ⟨_, rfl⟩

/-- Where both tell the same, and the second one fails where nothing is told, answers agree. -/
theorem agree_of_gives {told : Option β} {x y : Except Error β} (hx : Gives True told x)
    (hy : Gives strict told y) : Agree strict x y := by
  cases told with
  | some b => exact .inl (Eq.trans hx (Eq.symm hy))
  | none => exact .inr ⟨hx trivial, hy⟩

end Answers

namespace ForeignSystem

variable (s : ForeignSystem σ α)

theorem gives_size : Gives True s.sizeTold s.size := gives_call "size" s.callbacks.size s.data

theorem gives_perAtom (name : String) (callback : Option (σ → Answer (Option (List β)))) :
    Gives True (s.perAtomTold callback) (s.perAtom name callback) :=
  gives_bind (gives_call name callback s.data) fun items =>
    gives_bind s.gives_size fun size =>
      gives_bind (gives_get name ⟨items, size⟩) fun items => gives_some items.toArray

theorem gives_blockOf (name : String) (callback : Option (ι → Answer (Block β))) (input : ι) :
    Gives True (heard callback input >>= Block.told?) (blockOf name callback input) :=
  gives_bind (gives_call name callback input) fun b => gives_get name b

/-- Having neighbors computed leaves the system that is told of, or is a system error. -/
theorem ensures_afterNeighbors (cutoff : α) :
    Ensures (computeNeighbors cutoff) s fun answer left =>
      match s.afterNeighbors cutoff with
      | some s' => answer = .ok () ∧ left = s'
      | none => SystemFails answer := by
  rw [afterNeighbors]
  refine ensures_value_bind ?_
  cases s.callbacks.computeNeighbors with
  | none => exact ensures_ofExcept_bind nofun fun e he => by cases he; exact ⟨_, rfl⟩
  | some callback =>
    refine ensures_of_ok_bind rfl ?_
    rcases hrun : callback cutoff s.data with ⟨⟨status, data⟩, left⟩
    refine ensures_replay_bind (ensures_setValue_bind ?_)
    simp only [Option.bind_eq_bind, Option.bind_some, hrun, checkStatus]
    by_cases success : status = .success
    · simp only [if_pos success]
      exact ensures_ofExcept ⟨rfl, rfl⟩
    · simp only [if_neg success]
      exact ensures_ofExcept ⟨_, rfl⟩

end ForeignSystem

/-- So a system that stands for another one mirrors it. -/
theorem StandsFor.mirroring {strict : Prop} [Scalar α] [AtomicSystem τ α]
    {rel : ForeignSystem σ α → τ → Prop} (h : StandsFor strict rel) : Mirroring strict rel where
  size s t related := agree_of_gives s.gives_size (h.size s t related)
  species s t related := agree_of_gives (s.gives_perAtom ..) (h.species s t related)
  positions s t related := agree_of_gives (s.gives_perAtom ..) (h.positions s t related)
  pairs s t related := agree_of_gives (ForeignSystem.gives_blockOf ..) (h.pairs s t related)
  pairsContaining s t related atom :=
    agree_of_gives (ForeignSystem.gives_blockOf ..) (h.pairsContaining s t related atom)
  computeNeighbors cutoff := by
    intro s t related trace trace'
    have ended := s.ensures_afterNeighbors cutoff trace
    cases told : s.afterNeighbors cutoff with
    | some s' =>
      rw [told] at ended
      obtain ⟨answer, related'⟩ := h.neighbors s t related cutoff s' told trace'
      exact .inl ⟨ended.1.trans answer.symm, ended.2 ▸ related'⟩
    | none =>
      rw [told] at ended
      exact .inr ⟨ended, fun strictly => h.noNeighbors strictly s t related cutoff told trace'⟩

/-! ### A system that stands for any other -/

/-- A system made of what the callbacks of another one tell. -/
structure ToldSystem (σ α : Type) where
  source : ForeignSystem σ α

namespace ToldSystem

/-- What is told, or else a system error. -/
def answer (request : Request) : Option β → Except Error β
  | some b => .ok b
  | none => .error (.system (.recordedFailure request.name))

/-- Go on with the system that is told of after neighbors were computed. -/
def computeNeighbors (cutoff : α) : Traced (ToldSystem σ α) Unit := do
  let t ← Traced.value
  let source ← Traced.ofExcept (answer .computeNeighbors (t.source.afterNeighbors cutoff))
  Traced.setValue ⟨source⟩

instance [Scalar α] : AtomicSystem (ToldSystem σ α) α where
  size t := answer .size t.source.sizeTold
  species t := answer .species (t.source.perAtomTold t.source.callbacks.species)
  positions t := answer .positions (t.source.perAtomTold t.source.callbacks.positions)
  cell t := do UnitCell.ofMatrix (← answer .cell (heard t.source.callbacks.cell t.source.data))
  computeNeighbors := computeNeighbors
  pairs t := answer .pairs t.source.pairsTold
  pairsContaining t atom := answer .pairsContaining (t.source.pairsContainingTold atom)

theorem gives_answer (request : Request) (told : Option β) :
    Gives True told (answer request told) := by
  cases told with
  | some b => exact gives_some b
  | none => exact fun _ => ⟨_, rfl⟩

theorem ensures_computeNeighbors {t : ToldSystem σ α} {cutoff : α}
    {post : Except Error Unit → ToldSystem σ α → Prop}
    (ok : ∀ s, t.source.afterNeighbors cutoff = some s → post (.ok ()) ⟨s⟩)
    (error : t.source.afterNeighbors cutoff = none → ∀ cause, post (.error (.system cause)) t) :
    Ensures (computeNeighbors cutoff) t post := by
  refine ensures_value_bind ?_
  cases after : t.source.afterNeighbors cutoff with
  | some s => exact ensures_of_ok_bind rfl (ensures_setValue (ok s after))
  | none =>
    refine ensures_ofExcept_bind nofun fun e he => ?_
    cases he
    exact error after _

end ToldSystem

theorem standsFor_told [Scalar α] :
    StandsFor True fun (s : ForeignSystem σ α) (t : ToldSystem σ α) => t.source = s where
  size := by
    rintro _ t rfl
    exact ToldSystem.gives_answer ..
  species := by
    rintro _ t rfl
    exact ToldSystem.gives_answer ..
  positions := by
    rintro _ t rfl
    exact ToldSystem.gives_answer ..
  pairs := by
    rintro _ t rfl
    exact ToldSystem.gives_answer ..
  pairsContaining := by
    rintro _ t rfl atom
    exact ToldSystem.gives_answer ..
  neighbors := by
    rintro _ t rfl cutoff s' told
    refine ToldSystem.ensures_computeNeighbors (fun s found => ?_) fun none => ?_
    · cases found.symm.trans told
      exact ⟨rfl, rfl⟩
    · cases none.symm.trans told
  noNeighbors := by
    rintro - _ t rfl cutoff told
    refine ToldSystem.ensures_computeNeighbors (fun s found => ?_) fun _ cause => ⟨cause, rfl⟩
    cases found.symm.trans told

/-! ### Lists of systems -/

/-- The systems stand for those behind callbacks, one for each. -/
def Stand (strict : Prop) [AtomicSystem τ α] (foreign : Systems (ForeignSystem σ α))
    (natives : Systems τ) : Prop :=
  ∃ rel : ForeignSystem σ α → τ → Prop, StandsFor strict rel ∧ Pointwise rel foreign natives

/-- Some systems stand for any behind callbacks. -/
theorem stand_told [Scalar α] (foreign : Systems (ForeignSystem σ α)) :
    Stand True foreign (foreign.map fun s => (⟨s⟩ : ToldSystem σ α)) := by
  refine ⟨_, standsFor_told, Array.size_map.symm, fun i hx hy => ?_⟩
  rw [Array.getElem_map]

end Atomistic.Foreign
