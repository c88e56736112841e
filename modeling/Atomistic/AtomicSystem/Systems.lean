import Atomistic.AtomicSystem

/-!
# Lists of systems

Calculations run on several systems, numbered from 0. A computation over the list asks one of its
systems at a time; asking a system that is not there breaks an assumption of the library.
-/

namespace Atomistic

/-- Systems of one type, in order. -/
abbrev Systems (σ : Type) := Array σ

/-- The element at a position that is assumed to be in an array. -/
def elementAt {β : Type} (xs : Array β) (i : Nat) : Except Error β :=
  match xs[i]? with
  | some x => .ok x
  | none => .error (.panic .unspecified)

namespace Systems

variable {σ α β : Type} [AtomicSystem σ α]

/-- Ask the system of some number a question. -/
def ask (i : Nat) (question : σ → Except Error β) : Traced (Systems σ) β :=
  Traced.atIndex i (Traced.ask question)

/-- Make the system of some number compute its neighbors. -/
def computeNeighbors (cutoff : α) (i : Nat) : Traced (Systems σ) Unit :=
  Traced.atIndex i (AtomicSystem.computeNeighbors cutoff)

/-- The numbers of all systems. -/
def numbers : Traced (Systems σ) (List Nat) := do return List.range (← Traced.value).size

end Systems

end Atomistic
