import Atomistic.AtomicSystem.Systems
import Atomistic.Neighbors.WrappedGrid

/-!
# Neighbor lists

All pairs of atoms that are closer than a cutoff, each pair once. In a periodic system several
images of an atom may be that close to another one; the closest image is the one in the list, and
the first one that was met among equally close ones. Users are told of pairs with several images,
and of atoms that nearly coincide.

Images are met in no useful order. The first image of a pair is stored behind the pairs that are
there already, and its position is remembered; a closer one takes its place. Only when all images
were met are pairs sorted, and then listed for each of their atoms.
-/

namespace Atomistic

/-- The pairs of neighbors among some atoms, ordered by their atoms. -/
structure NeighborsList (α : Type) where
  cutoff : α
  pairs : List (Pair α)
  /-- The pairs that contain each of the atoms, in the same order. -/
  byAtom : Array (Array (Pair α))
  deriving DecidableEq

namespace NeighborsList

variable {α : Type} [Scalar α]

/-- The vector between the atoms of a candidate. -/
def candidateVector (positions : Array (Vector3 α)) (cell : UnitCell α) (c : Candidate) :
    Vector3 α :=
  let position (i : Nat) := positions.getD i Vector3.zero
  let direct := position c.second - position c.first
  if cell.isInfinite then direct else direct + cell.cartesian (c.shift.map Scalar.ofInt)

/-- The pair of a candidate, unless it is as far apart as the cutoff. -/
def pairWithin (positions : Array (Vector3 α)) (cell : UnitCell α) (cutoff : α) (c : Candidate) :
    Option (Pair α) :=
  let vector := candidateVector positions cell c
  if Scalar.le (cutoff * cutoff) vector.norm2 then none else some ⟨c.first, c.second, vector⟩

/-- The images of pairs that are closer than the cutoff, in the order in which they are met. It fails
when the grid for it could not be stored, or when its numbers do not fit in 32-bit integers. -/
def imagesWithin (build : Build) (positions : Array (Vector3 α)) (cell : UnitCell α) (cutoff : α) :
    Except Error (List (Pair α)) := do
  let grid := BinGrid.ofPositions positions cell cutoff
  if maxStoredBins < grid.total then throw (.panic .unspecified)
  let candidates ← grid.candidatesIn positions build
  return candidates.filterMap (pairWithin positions cell cutoff)

/-! ### Closest images -/

/-- The pairs of which images were met: the closest image so far of each of them, and for the two
atoms of a pair the position of this image and the number of images. -/
structure Collected (α : Type) where
  pairs : Array (Pair α)
  seen : Std.HashMap (Nat × Nat) (Nat × Nat)

namespace Collected

/-- No image was met. -/
def empty : Collected α := ⟨#[], ∅⟩

/-- Take notice of one more image. -/
def add (c : Collected α) (p : Pair α) : Except Error (Collected α) := do
  match c.seen[p.atoms]? with
  | none => return ⟨c.pairs.push p, c.seen.insert p.atoms (c.pairs.size, 1)⟩
  | some (position, count) =>
    let seen := c.seen.insert p.atoms (position, count + 1)
    let closest ← elementAt c.pairs position
    if Scalar.lt p.vector.norm2 closest.vector.norm2 then
      return ⟨c.pairs.setIfInBounds position p, seen⟩
    else return ⟨c.pairs, seen⟩

/-- Take notice of all images. -/
def ofImages (images : List (Pair α)) : Except Error (Collected α) := images.foldlM add empty

end Collected

/-- Atoms closer than this nearly coincide. -/
def closeThreshold : α := Scalar.decimal 1 3

/-- What users are told about two atoms, given the number of images of the second one that are close
to the first one, and the distance of the closest image. -/
def warnings (first second count : Nat) (distance : α) : List String :=
  let several :=
    if 1 < count then
      [s!"{count} periodic images of the pair {first}-{second} are inside the cutoff, "
        ++ "only the closest one is used"]
    else []
  if Scalar.lt distance closeThreshold then
    several ++ [s!"atoms {first} and {second} are very close to one another ("
      ++ Scalar.text distance ++ " A)"]
  else several

/-- What users are told about each of the pairs that were met. -/
def Collected.warnings (c : Collected α) : Except Error (List (List String)) :=
  c.seen.toList.mapM fun ((first, second), position, count) => do
    return NeighborsList.warnings first second count (← elementAt c.pairs position).distance

/-! ### Sorted pairs -/

/-- Order of pairs by their first, then by their second atom. -/
def inOrder (p q : Pair α) : Bool :=
  p.first < q.first || (p.first == q.first && p.second ≤ q.second)

/-- Add a pair to the lists of both of its atoms. -/
def enlist (lists : Array (Array (Pair α))) (p : Pair α) : Except Error (Array (Array (Pair α))) :=
  if p.first < lists.size && p.second < lists.size then
    .ok ((lists.modify p.first (·.push p)).modify p.second (·.push p))
  else .error (.panic .unspecified)

/-- The neighbor list of some positions in a cell. Pairs are looked through for warnings in no
particular order. -/
def new (build : Build) (positions : Array (Vector3 α)) (cell : UnitCell α) (cutoff : α) :
    Traced Unit (NeighborsList α) :=
  Traced.within .neighborsList do
    unless Scalar.isPositiveFinite cutoff do throw (.panic .neighborCutoff)
    let images ← Traced.ofExcept (imagesWithin build positions cell cutoff)
    let collected ← Traced.ofExcept (Collected.ofImages images)
    Traced.logGroups .warn .neighbors (← Traced.ofExcept collected.warnings)
    let pairs := collected.pairs.toList.mergeSort inOrder
    let byAtom ← Traced.ofExcept (pairs.foldlM enlist (Array.replicate positions.size #[]))
    return ⟨cutoff, pairs, byAtom⟩

/-- The pairs that contain an atom, in order; there are none to ask for beyond the last atom. -/
def containing? (n : NeighborsList α) (atom : Nat) : Option (List (Pair α)) :=
  n.byAtom[atom]?.map Array.toList

end NeighborsList

end Atomistic
