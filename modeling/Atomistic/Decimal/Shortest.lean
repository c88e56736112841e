/-!
# The shortest decimal in an interval

A binary floating-point number stands for every real that rounds to it, an interval around
`m · 2 ^ q`. To write it, one takes the coarsest decimal grid `10 ^ p · ℕ` that has a point in this
interval: no decimal with fewer digits reads back as the same number. On that grid only the two
neighbours of the number can be in the interval, and the nearer of the two is taken.

Everything is exact arithmetic on natural numbers, after bringing the grid and the interval to a
common unit.
-/

namespace Atomistic.Decimal

/-- The decimal number `digits · 10 ^ exponent`. -/
structure Digits where
  digits : Nat
  exponent : Int
  deriving DecidableEq, Repr

/-- The interval of reals that round to a positive number, in quarters of its last place:
`low · 2 ^ unit`, `center · 2 ^ unit` and `high · 2 ^ unit`. Its ends belong to it when `closed`. -/
structure Interval where
  low : Nat
  center : Nat
  high : Nat
  unit : Int
  closed : Bool

/-- The interval of `m · 2 ^ q`. The gap below is half the gap above when `m` is the smallest
significand of its binade; ties in reading go to the even significand, so the ends belong to an
even one. -/
def Interval.around (m : Nat) (q : Int) (narrowBelow : Bool) : Interval where
  low := if narrowBelow then 4 * m - 1 else 4 * m - 2
  center := 4 * m
  high := 4 * m + 2
  unit := q - 2
  closed := m % 2 == 0

/-- `num · 10 ^ p` and `num · 2 ^ q` as multiples of one unit: the factors of both sides. -/
def commonFactors (p q : Int) : Nat × Nat :=
  (Nat.pow 10 p.toNat * Nat.pow 2 (-q).toNat, Nat.pow 2 q.toNat * Nat.pow 10 (-p).toNat)

/-- Is the grid point `k · 10 ^ p` in the interval? -/
def Interval.contains (i : Interval) (p : Int) (k : Nat) : Bool :=
  let (a, b) := commonFactors p i.unit
  if i.closed then i.low * b ≤ k * a && k * a ≤ i.high * b
  else i.low * b < k * a && k * a < i.high * b

/-- The last multiple of `10 ^ p` that is not above the center. -/
def Interval.gridBelow (i : Interval) (p : Int) : Nat :=
  let (a, b) := commonFactors p i.unit
  i.center * b / a

/-- Of the two grid points around the center, the nearer one in the interval. With both equally
near, `tieUp` tells which one is taken. -/
def Interval.nearestOn (i : Interval) (tieUp : Nat → Bool) (p : Int) : Option Nat :=
  let (a, b) := commonFactors p i.unit
  let k := i.gridBelow p
  let below := 0 < k && i.contains p k
  let above := i.contains p (k + 1)
  if below && above then
    let left := i.center * b - k * a
    let right := (k + 1) * a - i.center * b
    some (if left < right then k else if right < left then k + 1
      else if tieUp k then k + 1 else k)
  else if below then some k
  else if above then some (k + 1)
  else none

/-- Try grids from `10 ^ p` downwards, `fuel` of them. -/
def Interval.search (i : Interval) (tieUp : Nat → Bool) : Nat → Int → Digits
  | 0, p => ⟨i.gridBelow p, p⟩
  | fuel + 1, p =>
    match i.nearestOn tieUp p with
    | some k => ⟨k, p⟩
    | none => i.search tieUp fuel (p - 1)

/-- An exponent `p` with `x < 10 ^ p` for every `x < 2 ^ n`, at most two above the smallest. -/
def decimalBound (n : Int) : Int :=
  if 0 ≤ n then n * 30103 / 100000 + 1 else n * 30102 / 100000 + 1

/-- The fewest digits that read back as `m · 2 ^ q`, and among those the nearest ones. Seventeen
digits are always enough, so the grids from the bound down to them suffice. -/
def shortest (m : Nat) (q : Int) (narrowBelow : Bool) (tieUp : Nat → Bool) : Digits :=
  (Interval.around m q narrowBelow).search tieUp 24 (decimalBound (m.log2 + 1 + q))

end Atomistic.Decimal
