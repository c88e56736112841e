import Atomistic.Neighbors.BinGrid

/-!
# Bins counted in words

Some builds of the library do not check sums of 32-bit integers. Bin numbers and numbers of cells
then wrap around: the search goes on with whatever comes out of that, and other atoms are met. Only
a division can still fail, by a number of bins that wraps around to 0 or to -1.
-/

namespace Atomistic

/-- What a build does about sums of 32-bit integers that overflow. -/
inductive Build where
  /-- The computation is given up. -/
  | checked
  /-- The sum wraps around. -/
  | wrapping
  deriving DecidableEq, Repr

namespace BinGrid

variable {α : Type}

/-- The 32-bit signed integer that an integer wraps around to. -/
def word (n : Int) : Int := n.bmod 0x100000000

/-- How many cells away a bin is, when bins are counted in words. -/
def wrappedCells (shape : Vector3 Nat) (raw : Vector3 Int) : Vector3 Int :=
  raw.zipWith (fun b (n : Nat) => b / word n) shape

/-- The bin of the cell, when bins are counted in words. -/
def wrappedBin (shape : Vector3 Nat) (raw : Vector3 Int) : Vector3 Nat :=
  raw.zipWith (fun b (n : Nat) => (b % word n).toNat) shape

/-- The bin at some offset from another one, and how many cells away it is. -/
def wrappedNeighbor? [Scalar α] (g : BinGrid α) (bin : Vector3 Nat) (offset : Vector3 Int) :
    Option (Vector3 Nat × Vector3 Int) :=
  let raw := bin.zipWith (fun (b : Nat) d => word ((b : Int) + d)) offset
  if g.cell.isInfinite then
    let inside := raw.zipWith (fun b (n : Nat) => decide (0 ≤ b ∧ b < word n)) g.shape
    if inside.all id then some (raw.map Int.toNat, Vector3.replicate 0) else none
  else some (wrappedBin g.shape raw, wrappedCells g.shape raw)

variable [Scalar α]

/-- Put an atom into its bin. -/
def placeWrapped (g : BinGrid α) (atom : Nat) (position : Vector3 α) : BinnedAtom :=
  if g.cell.isInfinite then g.place atom position
  else
    let raw := g.rawBin position
    ⟨atom, wrappedBin g.shape raw, wrappedCells g.shape raw⟩

/-- The number of cells from the first to the second atom of an encounter, as a word. -/
def Encounter.wrappedCandidate (e : Encounter) : Candidate :=
  { e.candidate with shift := e.candidate.shift.map word }

/-- Can bins be divided by the numbers of bins? Open systems do not ask for that. Numbers that wrap
around to -1 are so large that some bin has the least word, and its quotient is not a word. -/
def divides (g : BinGrid α) : Bool :=
  g.cell.isInfinite || (g.shape.map fun (n : Nat) => word n != 0 && word n != -1).all id

/-- The candidates among atoms at some positions, where sums wrap around. -/
def wrappedCandidates (g : BinGrid α) (positions : Array (Vector3 α)) :
    Except Error (List Candidate) :=
  if g.divides then
    let atoms := placeAllBy g.placeWrapped positions
    .ok ((g.encountersBy g.wrappedNeighbor? atoms).map Encounter.wrappedCandidate)
  else .error (.panic .unspecified)

/-- The candidates among atoms at some positions. -/
def candidatesIn (g : BinGrid α) (positions : Array (Vector3 α)) :
    Build → Except Error (List Candidate)
  | .checked => g.checkedCandidates positions
  | .wrapping => g.wrappedCandidates positions

end BinGrid

end Atomistic
