import Atomistic.AtomicSystem.Systems
import Atomistic.Labels
import Atomistic.SortedSet

/-!
# Environments

The rows of a descriptor are environments: whole structures, or atoms in them, possibly told apart
by species. A strategy says which environments a list of systems has, and which rows the gradients
of some environments have: one for each direction in which moving an atom can change them. The
labels of a gradient row start with those of its environment.

Strategies with a cutoff make the systems compute their neighbors before asking for pairs. Rows
that are gathered from pairs form a set, in lexicographic order.
-/

namespace Atomistic

/-- How the environments of systems are chosen. -/
inductive Strategy (α : Type) where
  /-- Each structure. -/
  | structures
  /-- Each atom, surrounded by the atoms closer than the cutoff. -/
  | atoms (cutoff : α)
  /-- Each structure with each species in it. -/
  | structureSpecies
  /-- Each atom with each species among its neighbors, the atom itself counting as one of them if
  `includesSelf`. -/
  | atomSpecies (cutoff : α) (includesSelf : Bool)
  /-- Environments that are listed beforehand, whatever the systems are, and whose gradients are not
  known. The list is checked when it is asked for. -/
  | given (names : List String) (rows : List (List Int))

/-- The label at a position that is assumed to be in a row. -/
def labelAt (row : List Int) (i : Nat) : Except Error Int :=
  match row[i]? with
  | some v => .ok v
  | none => .error (.panic .unspecified)

/-- The label at a position in a row, used as a position itself. -/
def positionAt (row : List Int) (i : Nat) : Except Error Nat := do
  positionOfLabel (← labelAt row i)

/-- A row whose entries are all small enough for labels. -/
def checkRow (row : List Int) : Except Error (List Int) :=
  row.mapM fun (v : Int) =>
    if v ≤ (maxLabel : Int) then .ok v else .error (.panic (.labelTooLarge v.toNat))

/-- The rows of a gradient in the three directions of space. -/
def spatialRows (row : List Int) : List (List Int) := [0, 1, 2].map fun k => row ++ [k]

/-- The systems that some environments belong to, in increasing order. -/
def requestedSystems (environments : Labels) : Except Error (List Int) := do
  return sortedLabels (← environments.rows.mapM (labelAt · 0))

/-- An environment of an atom with species: the atom, its species and the one of its neighbors. -/
abbrev SpeciesCenter := Nat × Int × Int

/-- The pairs of a system seen from each of their two atoms: an environment, and the neighbor that
makes the atom have it. -/
def orientedPairs {α : Type} (species : Array Int) (pairs : List (Pair α)) :
    Except Error (List (SpeciesCenter × Nat)) := do
  let both ← pairs.mapM fun p => do
    let first ← elementAt species p.first
    let second ← elementAt species p.second
    return [((p.first, first, second), p.second), ((p.second, second, first), p.first)]
  return both.flatten

/-- The environments that atoms have by being their own neighbors. -/
def ownEnvironments (species : Array Int) : List SpeciesCenter :=
  species.toList.zipIdx.map fun (s, center) => (center, s, s)

namespace Strategy

variable {σ α : Type} [AtomicSystem σ α]

/-- Check the cutoff of a strategy. -/
def check [Scalar α] (s : Strategy α) : Except Error Unit :=
  let checkCutoff (cutoff : α) (name : String) : Except Error Unit :=
    if Scalar.isPositiveFinite cutoff then .ok () else .error (.panic (.environmentCutoff name))
  match s with
  | atoms cutoff => checkCutoff cutoff "AtomEnvironment"
  | atomSpecies cutoff _ => checkCutoff cutoff "AtomSpeciesEnvironment"
  | structures | structureSpecies | given _ _ => .ok ()

/-- The variables of the environments. -/
def names : Strategy α → List String
  | structures => ["structure"]
  | atoms _ => ["structure", "center"]
  | structureSpecies => ["structure", "alpha"]
  | atomSpecies _ _ => ["structure", "center", "alpha", "beta"]
  | given names _ => names

/-- The variables of gradient rows. -/
def gradientNames (s : Strategy α) : List String :=
  match s with
  | structures | structureSpecies => s.names ++ ["atom", "spatial"]
  | atoms _ | atomSpecies _ _ => s.names ++ ["neighbor", "spatial"]
  | given names _ => names

/-- Rows with one atom of the system of number `i`. -/
def atomRows (i : Nat) : Traced (Systems σ) (List (List Int)) := do
  let size ← Systems.ask i AtomicSystem.size
  return (List.range size).map fun (center : Nat) => [(i : Int), center]

/-- Rows with one species of the system of number `i`. -/
def speciesRows (i : Nat) : Traced (Systems σ) (List (List Int)) := do
  let species ← Systems.ask i AtomicSystem.species
  return (sortedLabels species.toList).map fun s => [(i : Int), s]

/-- Rows with one atom of the system of number `i` and the species around it. -/
def atomSpeciesRows (cutoff : α) (includesSelf : Bool) (i : Nat) :
    Traced (Systems σ) (List (List Int)) := do
  Systems.computeNeighbors cutoff i
  let species ← Systems.ask i AtomicSystem.species
  let pairs ← Systems.ask i AtomicSystem.pairs
  let around := (← Traced.ofExcept (orientedPairs species pairs)).map (·.1)
  let all := if includesSelf then around ++ ownEnvironments species else around
  return all.map fun (center, alpha, beta) => [(i : Int), center, alpha, beta]

/-- The rows of all systems together. -/
def rowsOfAll (rows : Nat → Traced (Systems σ) (List (List Int))) :
    Traced (Systems σ) (List (List Int)) := do
  return (← (← Systems.numbers).mapM rows).flatten

/-- All environments of the systems. -/
def environments (s : Strategy α) : Traced (Systems σ) Labels := do
  let table (rows : List (List Int)) : Traced (Systems σ) Labels :=
    Traced.ofExcept do Labels.ofRows s.names (← rows.mapM checkRow)
  match s with
  | structures => table ((← Systems.numbers).map fun (i : Nat) => [(i : Int)])
  | atoms _ => table (← rowsOfAll atomRows)
  | structureSpecies => table (← rowsOfAll speciesRows)
  | atomSpecies cutoff includesSelf =>
    table (sortedRows (← rowsOfAll (atomSpeciesRows cutoff includesSelf)))
  | given _ rows => table rows

/-- Gradient rows of a structure: every atom in it. -/
def structureGradients (row : List Int) : Traced (Systems σ) (List (List Int)) := do
  let size ← Systems.ask (← Traced.ofExcept (positionAt row 0)) AtomicSystem.size
  return (List.range size).map fun (atom : Nat) => row ++ [(atom : Int)]

/-- Gradient rows of a structure with a species: every atom of this species. -/
def structureSpeciesGradients (row : List Int) : Traced (Systems σ) (List (List Int)) := do
  let species ← Systems.ask (← Traced.ofExcept (positionAt row 0)) AtomicSystem.species
  let alpha ← Traced.ofExcept (labelAt row 1)
  let atoms := species.toList.zipIdx.filter fun (s, _) => s == alpha
  return atoms.map fun (_, atom) => row ++ [(atom : Int)]

/-- Gradient rows of atoms in one system: every atom that is paired with one of them. -/
def atomGradients (cutoff : α) (environments : Labels) (system : Int) :
    Traced (Systems σ) (List (List Int)) := do
  let i ← Traced.ofExcept (positionOfLabel system)
  Systems.computeNeighbors cutoff i
  let here := environments.rows.filter fun row => row.head? == some system
  let centers ← Traced.ofExcept (here.mapM (positionAt · 1))
  let pairs ← Systems.ask i AtomicSystem.pairs
  let seen := pairs.flatMap fun p => [p.atoms, (p.second, p.first)]
  return (seen.filter fun (center, _) => centers.contains center).map
    fun (center, neighbor) => [system, center, neighbor]

/-- The environment of an atom with species that a row stands for. -/
def speciesCenterOf (row : List Int) : Except Error SpeciesCenter := do
  return (← positionAt row 1, ← labelAt row 2, ← labelAt row 3)

/-- Gradient rows of atoms with species in one system: every atom that makes one of them have its
environment. -/
def atomSpeciesGradients (cutoff : α) (environments : Labels) (system : Int) :
    Traced (Systems σ) (List (List Int)) := do
  let i ← Traced.ofExcept (positionOfLabel system)
  Systems.computeNeighbors cutoff i
  let species ← Systems.ask i AtomicSystem.species
  let here := environments.rows.filter fun row => row.head? == some system
  let centers ← Traced.ofExcept (here.mapM speciesCenterOf)
  let pairs ← Systems.ask i AtomicSystem.pairs
  let seen ← Traced.ofExcept (orientedPairs species pairs)
  return (seen.filter fun (center, _) => centers.contains center).map
    fun ((center, alpha, beta), neighbor) => [system, center, alpha, beta, neighbor]

/-- The rows that the gradients of some environments have, if they are known. -/
def gradientsFor (s : Strategy α) (environments : Labels) :
    Traced (Systems σ) (Option Labels) := do
  let table (rows : List (List Int)) : Traced (Systems σ) (Option Labels) :=
    Traced.ofExcept do
      Labels.ofRows s.gradientNames ((← rows.mapM checkRow).flatMap spatialRows)
  let bySystem (rows : Int → Traced (Systems σ) (List (List Int))) :
      Traced (Systems σ) (List (List Int)) := do
    let systems ← Traced.ofExcept (requestedSystems environments)
    return sortedRows (← systems.mapM rows).flatten
  match s with
  | structures => table (← environments.rows.mapM structureGradients).flatten
  | structureSpecies => table (← environments.rows.mapM structureSpeciesGradients).flatten
  | atoms cutoff => table (← bySystem (atomGradients cutoff environments))
  | atomSpecies cutoff _ => table (← bySystem (atomSpeciesGradients cutoff environments))
  | given _ _ => return none

/-- All environments of the systems, and the rows of their gradients. -/
def withGradients (s : Strategy α) : Traced (Systems σ) (Labels × Option Labels) := do
  let environments ← s.environments
  return (environments, ← s.gradientsFor environments)

end Strategy

end Atomistic
