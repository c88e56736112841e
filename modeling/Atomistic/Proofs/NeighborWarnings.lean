import Atomistic.Proofs.CollectedImages
import Atomistic.Proofs.ListedPairs
import Mathlib.Data.List.TakeWhile

/-!
# Warnings of a neighbor list

Computing a neighbor list leaves the warnings about its pairs, those of each pair together, and no
other record. The order of the pairs is left open. The warning about several images can be told from
the one about close atoms, and shows the number of images and the two atoms of its pair.
-/

namespace Atomistic.NeighborsList

variable {α : Type} [Scalar α]

/-! ### Texts -/

/-- What users are told of a pair with several images closer than the cutoff. -/
def severalImages (count first second : Nat) : String :=
  s!"{count} periodic images of the pair {first}-{second} are inside the cutoff, "
    ++ "only the closest one is used"

/-- A number is read from the digits in front of something else. -/
theorem toDigits_append_inj {m n : Nat} {c d : Char} {cs ds : List Char} (hc : c.isDigit = false)
    (hd : d.isDigit = false) (h : Nat.toDigits 10 m ++ c :: cs = Nat.toDigits 10 n ++ d :: ds) :
    m = n ∧ cs = ds := by
  have number (n : Nat) {c : Char} (cs : List Char) (hc : c.isDigit = false) :
      (Nat.toDigits 10 n ++ c :: cs).takeWhile Char.isDigit = Nat.toDigits 10 n := by
    rw [List.takeWhile_append_of_pos fun _ => Nat.isDigit_of_mem_toDigits (by decide) (by decide),
      List.takeWhile_cons_of_neg (by rw [hc]; exact Bool.false_ne_true), List.append_nil]
  have digits : Nat.toDigits 10 m = Nat.toDigits 10 n := by
    rw [← number m cs hc, h, number n ds hd]
  refine ⟨?_, ?_⟩
  · rw [← Nat.ofDigitChars_ten_toDigits (n := m), digits, Nat.ofDigitChars_ten_toDigits]
  · rw [digits, List.append_cancel_left_eq, List.cons.injEq] at h
    exact h.2

theorem toList_severalImages (count first second : Nat) :
    (severalImages count first second).toList = Nat.toDigits 10 count ++ ' ' ::
      ("periodic images of the pair ".toList ++ (Nat.toDigits 10 first ++ '-' ::
        (Nat.toDigits 10 second ++ ' ' ::
          "are inside the cutoff, only the closest one is used".toList))) := by
  have text : severalImages count first second = count.repr ++ " periodic images of the pair "
      ++ first.repr ++ "-" ++ second.repr ++ " are inside the cutoff, "
      ++ "only the closest one is used" := rfl
  rw [text]
  simp [Nat.toList_repr]

/-- The number of images and the atoms are read from the warning. -/
theorem severalImages_inj {count first second count' first' second' : Nat} :
    severalImages count first second = severalImages count' first' second' ↔
      count = count' ∧ first = first' ∧ second = second' := by
  refine ⟨fun h => ?_, by rintro ⟨rfl, rfl, rfl⟩; rfl⟩
  rw [← String.toList_inj, toList_severalImages, toList_severalImages] at h
  obtain ⟨hcount, h⟩ := toDigits_append_inj (by decide) (by decide) h
  rw [List.append_cancel_left_eq] at h
  obtain ⟨hfirst, h⟩ := toDigits_append_inj (by decide) (by decide) h
  obtain ⟨hsecond, -⟩ := toDigits_append_inj (by decide) (by decide) h
  exact ⟨hcount, hfirst, hsecond⟩

/-- Other warnings begin with a word. -/
theorem severalImages_ne {count first second : Nat} {c : Char} {rest : List Char}
    (hc : c.isDigit = false) : (severalImages count first second).toList ≠ c :: rest := by
  intro h
  rw [toList_severalImages] at h
  cases digits : Nat.toDigits 10 count with
  | nil => exact Nat.toDigits_ne_nil digits
  | cons d ds =>
    have digit : d.isDigit = true :=
      Nat.isDigit_of_mem_toDigits (b := 10) (n := count) (by decide) (by decide) (by simp [digits])
    rw [digits, List.cons_append, List.cons.injEq] at h
    rw [h.1, hc] at digit
    cases digit

theorem severalImages_mem_warnings {images : Images α} {count first second : Nat} :
    severalImages count first second ∈ images.warnings ↔ 1 < count ∧ count = images.count ∧
      first = images.closest.first ∧ second = images.closest.second := by
  have close (shown : String) : severalImages count first second
      ≠ s!"atoms {images.closest.first} and {images.closest.second} are very close to one another ("
        ++ shown ++ " A)" := by
    intro h
    have text : severalImages count first second
        = "atoms " ++ images.closest.first.repr ++ " and " ++ images.closest.second.repr
          ++ " are very close to one another (" ++ shown ++ " A)" := h
    refine absurd (congrArg String.toList text) ?_
    simp only [String.toList_append, List.append_assoc]
    exact severalImages_ne (c := 'a') (by decide)
  have several : severalImages count first second ∈ (if 1 < images.count then
      [severalImages images.count images.closest.first images.closest.second] else []) ↔
      1 < count ∧ count = images.count ∧
        first = images.closest.first ∧ second = images.closest.second := by
    split
    · rw [List.mem_singleton, severalImages_inj]
      constructor
      · rintro ⟨rfl, rest⟩
        exact ⟨by assumption, rfl, rest⟩
      · exact fun h => h.2
    · constructor
      · rintro ⟨⟩
      · rintro ⟨one, rfl, -⟩
        exact absurd one (by assumption)
  unfold Images.warnings warnings
  dsimp only
  split
  · rw [List.mem_append, List.mem_singleton, or_iff_left (close _)]
    exact several
  · exact several

/-! ### Neighbor lists -/

variable {build : Build} {positions : Array (Vector3 α)} {cell : UnitCell α} {cutoff : α}

/-- The warnings are all records of a neighbor list. -/
theorem records_warned (texts : List (List String)) (span : Span) :
    Trace.records #[.enter span, .records (texts.map (·.map (⟨.warn, .neighbors, ·⟩))), .leave span]
      = texts.flatten.map fun text => ⟨.warn, .neighbors, text⟩ := by
  rw [List.map_flatten]
  simp [Trace.records, Trace.bursts]

theorem new_eq (accepted : Scalar.isPositiveFinite cutoff = true) :
    new build positions cell cutoff = Traced.within .neighborsList do
      let images ← Traced.ofExcept (imagesWithin build positions cell cutoff)
      let collected ← Traced.ofExcept (Collected.ofImages images)
      Traced.logGroups .warn .neighbors (← Traced.ofExcept collected.warnings)
      let pairs := collected.pairs.toList.mergeSort inOrder
      let byAtom ← Traced.ofExcept (pairs.foldlM enlist (Array.replicate positions.size #[]))
      return ⟨cutoff, pairs, byAtom⟩ := by
  rw [new, accepted]
  rfl

/-- The closest images join two atoms of the system, as all images do. -/
theorem joins_of_mem_gather {met : List (Pair α)}
    (h : imagesWithin build positions cell cutoff = .ok met) :
    ∀ p ∈ (gather met).map (·.closest), Joins positions.size p := by
  intro p hp
  obtain ⟨images, hmem, rfl⟩ := List.mem_map.1 hp
  exact (joins_of_mem_imagesWithin h (closest_mem_of_gather hmem)).1

/-- A neighbor list holds the closest image of each pair, lists them for the atoms, and leaves the
warnings about them. -/
theorem outcome_new_of_ok (accepted : Scalar.isPositiveFinite cutoff = true)
    {met : List (Pair α)} (h : imagesWithin build positions cell cutoff = .ok met) :
    ∃ lists, ∃ texts : List (List String), ∃ trace, (new build positions cell cutoff).outcome ()
        = (.ok ⟨cutoff, (gather met).map (·.closest), lists⟩, (), trace) ∧
      Filled positions.size ((gather met).map (·.closest)) lists ∧
      texts.Perm ((gather met).map Images.warnings) ∧
      Trace.records trace = texts.flatten.map fun text => ⟨.warn, .neighbors, text⟩ := by
  obtain ⟨collected, hcollected, of⟩ := Collected.exists_ofImages met
  obtain ⟨texts, htexts, same⟩ := of.exists_warnings
  obtain ⟨lists, hlists, filled⟩ := exists_filled (joins_of_mem_gather h)
  refine ⟨lists, texts, _, ?_, filled, same, records_warned texts .neighborsList⟩
  rw [new_eq accepted, h]
  simp only [Traced.ofExcept, pure_bind, hcollected, htexts, of.sorted_eq, hlists]
  rfl

theorem outcome_new_of_error (accepted : Scalar.isPositiveFinite cutoff = true) {e : Error}
    (h : imagesWithin build positions cell cutoff = .error e) :
    ((new build positions cell cutoff).outcome ()).1 = .error e := by
  rw [new_eq accepted, h]
  rfl

theorem outcome_new_of_refused (build : Build) (positions : Array (Vector3 α)) (cell : UnitCell α)
    (refused : Scalar.isPositiveFinite cutoff = false) :
    ((new build positions cell cutoff).outcome ()).1 = .error (.panic .neighborCutoff) := by
  rw [new, refused]
  rfl

/-- A neighbor list is made of the images for a cutoff that is accepted, and of nothing else. -/
theorem images_of_outcome_new {n : NeighborsList α} {trace : Trace}
    (h : (new build positions cell cutoff).outcome () = (.ok n, (), trace)) :
    Scalar.isPositiveFinite cutoff = true ∧
      ∃ met, imagesWithin build positions cell cutoff = .ok met ∧
      n.cutoff = cutoff ∧ n.pairs = (gather met).map (·.closest) ∧
      Filled positions.size n.pairs n.byAtom := by
  cases accepted : Scalar.isPositiveFinite cutoff with
  | false =>
    have failed := outcome_new_of_refused build positions cell accepted
    rw [h] at failed
    cases failed
  | true =>
    cases hmet : imagesWithin build positions cell cutoff with
    | error e =>
      have failed := outcome_new_of_error accepted hmet
      rw [h] at failed
      cases failed
    | ok met =>
      obtain ⟨lists, texts, trace', run, filled, -⟩ := outcome_new_of_ok accepted hmet
      rw [h] at run
      cases run
      exact ⟨rfl, met, rfl, rfl, rfl, filled⟩

end Atomistic.NeighborsList
