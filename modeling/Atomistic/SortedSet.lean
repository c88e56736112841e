/-!
# Sets as sorted lists

The distinct elements of a list, in order.
-/

namespace Atomistic

/-- The first element of each run of equal elements. -/
def runHeads {β : Type} [BEq β] (xs : List β) : List β :=
  (xs.splitBy (· == ·)).filterMap List.head?

/-- The distinct elements of a list, in the order that `le` gives. -/
def sortedSet {β : Type} [BEq β] (le : β → β → Bool) (xs : List β) : List β :=
  runHeads (xs.mergeSort le)

/-- Lexicographic order of rows: the first difference decides, and a row comes before those that it
is the beginning of. -/
def rowLe : List Int → List Int → Bool
  | [], _ => true
  | _ :: _, [] => false
  | a :: r, b :: s => a < b || (a == b && rowLe r s)

/-- Distinct rows of labels, in lexicographic order. -/
def sortedRows (rows : List (List Int)) : List (List Int) := sortedSet rowLe rows

/-- Distinct labels, in increasing order. -/
def sortedLabels (labels : List Int) : List Int := sortedSet (fun a b => a ≤ b) labels

end Atomistic
