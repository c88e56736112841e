import Std.Data.HashMap
import Atomistic.Geometry.UnitCell

/-!
# Bins of atoms

Looking for neighbors among all pairs of atoms is slow, so atoms are first put into the bins of a
grid. In a periodic system the grid divides the unit cell, and an atom outside of the cell goes to
the bin of its image inside, together with the number of cells between the two; in an open system it
divides the box around all atoms. Bins are about as wide as the cutoff, so the neighbors of an atom
are in the bins around its own, up to `reach` bins away in each direction.

A candidate is a pair of atoms in two such bins, with the number of cells to add to the vector
between them. Bin numbers and numbers of cells are plain integers here; `BinGrid.fitsWords` and
`Encounter.fitsWords` tell whether they would all fit in 32-bit words. A build that checks its sums
is given up when they do not.
-/

namespace Atomistic

/-- The number of bins above which a grid is made coarser. -/
def maxBins : Nat := 100000

/-- The number of bins above which no grid can be stored. -/
def maxStoredBins : Nat := 0x7FFFFFFFFFFFFFFF / 24

/-- A grid of bins over a unit cell, or over the box around the atoms of an open system. -/
structure BinGrid (α : Type) where
  cell : UnitCell α
  /-- The number of bins in each direction. -/
  shape : Vector3 Nat
  /-- How many bins away neighbors are looked for. -/
  reach : Vector3 Int
  /-- The corner of the box of an open system. -/
  origin : Vector3 α
  /-- The extent of the grid in each direction. -/
  lengths : Vector3 α

/-- An atom in its bin, `shift` cells away from where its position is. -/
structure BinnedAtom where
  atom : Nat
  bin : Vector3 Nat
  shift : Vector3 Int
  deriving DecidableEq, Repr

/-- Two atoms that may be neighbors, the second one `shift` cells away. -/
structure Candidate where
  first : Nat
  second : Nat
  shift : Vector3 Int
  deriving DecidableEq, Repr

namespace BinGrid

variable {α : Type} [Scalar α]

/-- The corner and the extent of the grid of an open system: the box around its atoms, at least as
wide as the cutoff. -/
def boundingBox (positions : Array (Vector3 α)) (cutoff : α) : Vector3 α × Vector3 α :=
  let points := positions.toList
  let corner (pick : List α → α) : Vector3 α :=
    if points.isEmpty then Vector3.zero
    else ⟨pick (points.map (·.x)), pick (points.map (·.y)), pick (points.map (·.z))⟩
  let origin := corner Scalar.lowest
  (origin, (corner Scalar.highest - origin).map (Scalar.greatest · cutoff))

/-- As many whole bins of the given width as fit, but one at least. -/
def atLeastOne (x : α) : α := Scalar.greatest (Scalar.trunc x) Scalar.one

/-- The number of bins in each direction. Above `maxBins` in total, the three numbers are reduced in
proportion. -/
def binCounts (lengths : Vector3 α) (cutoff : α) : Vector3 α :=
  let counts := lengths.map fun length => atLeastOne (length / cutoff)
  let total := counts.x * counts.y * counts.z
  let limit : α := Scalar.ofNat maxBins
  if Scalar.lt limit total then
    let scaling := Scalar.cbrt (limit / total)
    counts.map fun n => atLeastOne (n * scaling)
  else counts

/-- How far to look from a bin in one direction: in an open system to the next bin, if there is
one; in a periodic system as many bins as the cutoff spans. -/
def reachAlong (isOpen : Bool) (cutoff count length : α) : Int :=
  if isOpen then if Scalar.lt Scalar.one count then 1 else 0
  else max (Scalar.toInt32 (Scalar.ceil (cutoff * count / length))) 1

/-- The grid for some positions and a cutoff. -/
def ofPositions (positions : Array (Vector3 α)) (cell : UnitCell α) (cutoff : α) : BinGrid α :=
  let (origin, lengths) :=
    if cell.isInfinite then boundingBox positions cutoff else (Vector3.zero, cell.faceDistances)
  let counts := binCounts lengths cutoff
  { cell := cell
    shape := counts.map Scalar.toCount
    reach := counts.zipWith (reachAlong cell.isInfinite cutoff) lengths
    origin := origin
    lengths := lengths }

/-- The total number of bins. -/
def total (g : BinGrid α) : Nat := g.shape.x * g.shape.y * g.shape.z

/-- The bin of a point of an open system; points on the far faces of the box belong to the last
bins. -/
def openBin (g : BinGrid α) (position : Vector3 α) : Vector3 Nat :=
  let along (offset length : α) (count : Nat) : Nat :=
    let value := Scalar.toInt64 (Scalar.floor (offset / length * Scalar.ofNat count))
    (max 0 (min value (count - 1))).toNat
  let offset := position - g.origin
  ⟨along offset.x g.lengths.x g.shape.x, along offset.y g.lengths.y g.shape.y,
    along offset.z g.lengths.z g.shape.z⟩

/-- The bin of a point of a periodic system, counted on over all images of the cell. -/
def rawBin (g : BinGrid α) (position : Vector3 α) : Vector3 Int :=
  (g.cell.fractional position).zipWith
    (fun x count => Scalar.toInt32 (Scalar.floor (x * Scalar.ofNat count))) g.shape

/-- How many cells away a bin is that was counted on over all images. -/
def cellsOf (shape : Vector3 Nat) (raw : Vector3 Int) : Vector3 Int :=
  raw.zipWith (fun b (n : Nat) => b / (n : Int)) shape

/-- The bin of the cell that is the image of one counted on over all images. -/
def binOf (shape : Vector3 Nat) (raw : Vector3 Int) : Vector3 Nat :=
  raw.zipWith (fun b (n : Nat) => (b % (n : Int)).toNat) shape

/-- Put an atom into its bin. -/
def place (g : BinGrid α) (atom : Nat) (position : Vector3 α) : BinnedAtom :=
  if g.cell.isInfinite then ⟨atom, g.openBin position, Vector3.replicate 0⟩
  else
    let raw := g.rawBin position
    ⟨atom, binOf g.shape raw, cellsOf g.shape raw⟩

/-- All atoms, each of them put into a bin, in the order of the atoms. -/
def placeAllBy (put : Nat → Vector3 α → BinnedAtom) (positions : Array (Vector3 α)) :
    List BinnedAtom :=
  positions.toList.zipIdx.map fun (position, atom) => put atom position

/-- All atoms in their bins. -/
def placeAll (g : BinGrid α) (positions : Array (Vector3 α)) : List BinnedAtom :=
  placeAllBy g.place positions

/-- Rows of bins follow each other along z, then along y, then along x. -/
def binNumber (shape : Vector3 Nat) (bin : Vector3 Nat) : Nat :=
  (bin.x * shape.y + bin.y) * shape.z + bin.z

/-- The atoms of each bin, in the order in which they were placed. -/
def byBin (atoms : List BinnedAtom) : Std.HashMap (Vector3 Nat) (List BinnedAtom) :=
  atoms.foldr (fun a bins => bins.insert a.bin (a :: bins.getD a.bin [])) ∅

theorem getD_byBin (atoms : List BinnedAtom) (bin : Vector3 Nat) :
    (byBin atoms).getD bin [] = atoms.filter (·.bin == bin) := by
  induction atoms with
  | nil => simp [byBin]
  | cons a atoms ih =>
    have step : byBin (a :: atoms)
        = (byBin atoms).insert a.bin (a :: (byBin atoms).getD a.bin []) := rfl
    rw [step, Std.HashMap.getD_insert]
    by_cases h : a.bin = bin
    · subst h
      simp [ih]
    · simp [h, ih]

/-- The bins that hold atoms, in the order of their numbers. -/
def occupied (shape : Vector3 Nat) (atoms : List BinnedAtom) : List (Vector3 Nat) :=
  (byBin atoms).keys.mergeSort fun a b => binNumber shape a ≤ binNumber shape b

/-- The integers from `-n` to `n`. -/
def offsets (n : Int) : List Int :=
  (List.range (2 * n + 1).toNat).map fun (k : Nat) => (k : Int) - n

/-- The bin at some offset from another one, and how many cells away it is. The grid of an open
system has no bins beyond its faces. -/
def neighbor? (g : BinGrid α) (bin : Vector3 Nat) (offset : Vector3 Int) :
    Option (Vector3 Nat × Vector3 Int) :=
  let raw := bin.zipWith (fun (b : Nat) d => (b : Int) + d) offset
  if g.cell.isInfinite then
    let inside := raw.zipWith (fun b (n : Nat) => decide (0 ≤ b ∧ b < (n : Int))) g.shape
    if inside.all id then some (raw.map Int.toNat, Vector3.replicate 0) else none
  else some (binOf g.shape raw, cellsOf g.shape raw)

/-- Two atoms in bins within reach of each other, the bin of the second one `cells` cells away. -/
structure Encounter where
  cells : Vector3 Int
  here : BinnedAtom
  there : BinnedAtom

/-- All encounters of atoms, each unordered pair of atoms being met from the one that comes first.
Bins are visited in the order of their numbers, and around each of them the bins within reach, which
are those that `next` leads to. -/
def encountersBy (g : BinGrid α)
    (next : Vector3 Nat → Vector3 Int → Option (Vector3 Nat × Vector3 Int))
    (atoms : List BinnedAtom) : List Encounter :=
  let bins := byBin atoms
  (occupied g.shape atoms).flatMap fun bin =>
    (offsets g.reach.x).flatMap fun dx =>
      (offsets g.reach.y).flatMap fun dy =>
        (offsets g.reach.z).flatMap fun dz =>
          match next bin ⟨dx, dy, dz⟩ with
          | none => []
          | some (other, cells) =>
            (bins.getD bin []).flatMap fun a =>
              (bins.getD other []).filterMap fun b =>
                if a.atom < b.atom then some ⟨cells, a, b⟩ else none

/-- All encounters of atoms in a grid. -/
def encounters (g : BinGrid α) (atoms : List BinnedAtom) : List Encounter :=
  g.encountersBy g.neighbor? atoms

/-- The number of cells from the first to the second atom of an encounter. -/
def Encounter.candidate (e : Encounter) : Candidate where
  first := e.here.atom
  second := e.there.atom
  shift :=
    { x := e.cells.x + e.here.shift.x - e.there.shift.x
      y := e.cells.y + e.here.shift.y - e.there.shift.y
      z := e.cells.z + e.here.shift.z - e.there.shift.z }

/-- The candidates for neighbors among some atoms. -/
def candidates (g : BinGrid α) (atoms : List BinnedAtom) : List Candidate :=
  (g.encounters atoms).map Encounter.candidate

/-- Is this a 32-bit signed integer? -/
def isWord (n : Int) : Bool := -0x80000000 ≤ n && n < 0x80000000

/-- Do the sums that give the shift of an encounter stay within 32-bit integers? -/
def Encounter.fitsWords (e : Encounter) : Bool :=
  let along (cells here there : Int) := isWord (cells + here) && isWord (cells + here - there)
  along e.cells.x e.here.shift.x e.there.shift.x && along e.cells.y e.here.shift.y e.there.shift.y
    && along e.cells.z e.here.shift.z e.there.shift.z

/-- Do the numbers of all bins that are looked at stay within 32-bit integers? -/
def fitsWords (g : BinGrid α) : Bool :=
  (g.shape.zipWith (fun (n : Nat) reach => isWord ((n : Int) - 1 + reach)) g.reach).all id

/-- The candidates among atoms at some positions, unless a sum overflows. -/
def checkedCandidates (g : BinGrid α) (positions : Array (Vector3 α)) :
    Except Error (List Candidate) :=
  let encounters := g.encounters (g.placeAll positions)
  if g.fitsWords && encounters.all (·.fitsWords) then .ok (encounters.map Encounter.candidate)
  else .error (.panic .unspecified)

end BinGrid

end Atomistic
