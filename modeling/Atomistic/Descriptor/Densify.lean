import Std.Data.HashMap
import Std.Data.HashSet
import Atomistic.Descriptor
import Atomistic.Descriptor.Partition

/-!
# Densification

A descriptor gives a value to some combinations of its variables. Moving variables from one axis to
the other one changes which of these variables number rows and which number columns, while every
combination keeps its value. Combinations that had no place before get the value zero.

Moving variables from the features to the environments gives each environment one row for each tuple
of values of the moved variables, a block; features that only differ in them become one column.
Moving variables from the environments to the features is the same the other way around. New rows
and columns are in the order in which they are first seen, going through the old ones.

The descriptor is changed in two steps: its gradients (and the environments that are split) take
their new form before the last table is built, the rest of it after that.
-/

namespace Atomistic

section

variable {β : Type} [BEq β] [Hashable β]

/-- The distinct elements of a list that are not in `seen`, in the order of their first
occurrence. -/
def firstSeenAfter (seen : Std.HashSet β) : List β → List β
  | [] => []
  | x :: rest =>
    if seen.contains x then firstSeenAfter seen rest
    else x :: firstSeenAfter (seen.insert x) rest

/-- The distinct elements of a list, in the order of their first occurrence. -/
def firstSeen (xs : List β) : List β := firstSeenAfter ∅ xs

/-- The number of each element of a list, the last one if there are several. -/
def numbering (xs : List β) : Std.HashMap β Nat :=
  xs.zipIdx.foldl (fun map (x, i) => map.insert x i) ∅

end

namespace Descriptor

/-- Rows that are split in two parts, each of which takes a place of its own in a grid: the distinct
first parts, the distinct second parts, and for each two of them the row that they are the parts
of. -/
structure Splitting where
  firsts : Array (List Int)
  seconds : Array (List Int)
  sources : Std.HashMap (List Int × List Int) Nat

/-- The splitting of rows into the given parts. -/
def Splitting.ofParts (parts : List (List Int × List Int)) : Splitting where
  firsts := (firstSeen (parts.map (·.1))).toArray
  seconds := (firstSeen (parts.map (·.2))).toArray
  sources := numbering parts

/-- The row that has the parts of the given numbers. -/
def Splitting.source? (s : Splitting) (first second : Nat) : Option Nat := do
  s.sources[(← s.firsts[first]?, ← s.seconds[second]?)]?

/-- The sources of all places of a splitting, second parts varying faster. -/
def Splitting.places (s : Splitting) : Array (Option Nat) :=
  Array.ofFn fun k : Fin (s.firsts.size * s.seconds.size) =>
    s.source? (k / s.seconds.size) (k % s.seconds.size)

/-- Fail for a name that occurs twice. -/
def checkUnique (names : List String) : Except Error Unit :=
  match Partition.repeated? [] names with
  | some name => .error (.parameter (.gradientVariableTwice name))
  | none => .ok ()

variable {α : Type} [Scalar α]

/-- Values whose columns are split into blocks, which become rows below each of the old ones. -/
def splitColumns (values : Dense α) (s : Splitting) : Dense α :=
  let blocks := s.firsts.size
  let columns := s.seconds.size
  let places := s.places
  values.gather (values.rows * blocks) columns fun i j =>
    (places.getD (i % blocks * columns + j) none).map fun column => (i / blocks, column)

/-- Values whose rows are split into blocks, which become columns next to each other. -/
def splitRows (values : Dense α) (s : Splitting) : Dense α :=
  let blocks := s.seconds.size
  let places := s.places
  values.gather s.firsts.size (blocks * values.columns) fun i j =>
    (places.getD (i * blocks + j / values.columns) none).map fun row => (row, j % values.columns)

/-- The gradients after moving variables of the features to the environments. -/
def gradientsToEnvironments (g : Gradients α) (s : Splitting)
    (environmentNames moved : List String) : Except Error (Gradients α) := do
  let n := environmentNames.length
  let names := environmentNames ++ moved ++ g.labels.names.drop n
  checkUnique names
  let rows := g.labels.rows.flatMap fun row =>
    s.firsts.toList.map fun block => row.take n ++ block ++ row.drop n
  return ⟨← Labels.ofRows names rows, splitColumns g.values s⟩

/-- The gradients after moving variables of the environments to the features. -/
def gradientsToFeatures (g : Gradients α) (p : Partition) (environments : Labels)
    (blocks : Array (List Int)) : Except Error (Gradients α) := do
  let n := environments.size
  let index := environments.index
  let parts ← g.labels.rows.mapM fun row => do
    let start := row.take n
    if !index.contains start then throw (.internal (.environmentMissing start))
    return (p.keptOf start ++ row.drop n, p.movedOf start)
  let s := { Splitting.ofParts parts with seconds := blocks }
  let names := p.keptOf environments.names ++ g.labels.names.drop n
  return ⟨← Labels.ofRows names s.firsts.toList, splitRows g.values s⟩

/-- Move the wanted variables from the features to the environments. -/
def densify (wanted : List String) : Traced (Descriptor α) Unit :=
  Traced.within .densify do
    let d ← Traced.value
    let p ← Traced.stateless (Partition.ofNames wanted d.features d.environments)
    unless p.moved.isEmpty do
      let moved := p.movedOf d.features.names
      let s := Splitting.ofParts (d.features.rows.map fun f => (p.movedOf f, p.keptOf f))
      Traced.log .debug .densify (s!"densify: moving {bracketedNames moved} to the environments, "
        ++ s!"creating {s.firsts.size} blocks of {d.environments.count} environments")
      let environments ← Traced.ofExcept <| Labels.ofRows (d.environments.names ++ moved)
        (d.environments.rows.flatMap fun e => s.firsts.toList.map fun block => e ++ block)
      let gradients ← Traced.ofExcept <| d.gradients.mapM fun g =>
        gradientsToEnvironments g s d.environments.names moved
      Traced.setValue { d with gradients := gradients, environments := environments }
      let features ← Traced.ofExcept <|
        Labels.ofRows (p.keptOf d.features.names) s.seconds.toList
      Traced.setValue { d with
        values := splitColumns d.values s
        environments := environments
        features := features
        gradients := gradients }

/-- Move the wanted variables from the environments to the features. -/
def densifyToFeatures (wanted : List String) : Traced (Descriptor α) Unit :=
  Traced.within .densifyToFeatures do
    let d ← Traced.value
    let p ← Traced.stateless (Partition.ofNames wanted d.environments d.features)
    unless p.moved.isEmpty do
      let moved := p.movedOf d.environments.names
      let s := Splitting.ofParts (d.environments.rows.map fun e => (p.keptOf e, p.movedOf e))
      Traced.log .debug .densify (s!"densify: moving {bracketedNames moved} to the features, "
        ++ s!"merging {d.environments.count} environments into {s.firsts.size}")
      let features ← Traced.ofExcept <| Labels.ofRows (moved ++ d.features.names)
        (s.seconds.toList.flatMap fun block => d.features.rows.map fun f => block ++ f)
      let gradients ← Traced.ofExcept <| d.gradients.mapM fun g =>
        gradientsToFeatures g p d.environments s.seconds
      Traced.setValue { d with gradients := gradients }
      let environments ← Traced.ofExcept <|
        Labels.ofRows (p.keptOf d.environments.names) s.firsts.toList
      Traced.setValue { d with
        values := splitRows d.values s
        environments := environments
        features := features
        gradients := gradients }

end Descriptor

end Atomistic
