import Atomistic.Scalar
import Atomistic.Decimal.Layout

/-!
# Binary floating point

The instance of `Scalar` that calculations run with: 64-bit binary floating-point numbers, each
operation rounded to nearest.
-/

namespace Atomistic.Binary64

/-- A number taken apart into its sign, significand and exponent. -/
structure Parts where
  negative : Bool
  /-- Biased exponent, 0 to 2047. -/
  exponent : Nat
  /-- Fraction bits, without the leading one of normal numbers. -/
  fraction : Nat

/-- The bit of the sign. -/
def signUnit : Nat := 0x8000000000000000

/-- The lowest bit of the exponent, which is also the leading one of normal numbers. -/
def exponentUnit : Nat := 0x10000000000000

/-- The three fields of the bit pattern. -/
def parts (x : Float) : Parts :=
  let bits := x.toBits.toNat
  ⟨signUnit ≤ bits, bits % signUnit / exponentUnit, bits % exponentUnit⟩

/-- The shortest digits of a number that is neither zero nor special. -/
def Parts.shortest (p : Parts) (tieUp : Nat → Bool) : Decimal.Digits :=
  if p.exponent = 0 then Decimal.shortest p.fraction (-1074) false tieUp
  else Decimal.shortest (exponentUnit + p.fraction) (p.exponent - 1075)
    (p.fraction == 0 && 1 < p.exponent) tieUp

/-- A number in the given layout; the sign of zero is written. -/
def write (layout : Decimal.Layout) (x : Float) : String :=
  let p := parts x
  let sign := if p.negative then "-" else ""
  if p.exponent = 2047 then if p.fraction = 0 then sign ++ "inf" else "NaN"
  else if p.exponent = 0 && p.fraction = 0 then sign ++ layout.zero
  else sign ++ layout.write (p.shortest layout.tieUp)

/-- Position of a number in the total order of bit patterns: negative numbers are ordered by
falling magnitude, and all of them come before the positive ones. -/
def orderKey (x : Float) : Int :=
  let bits := x.toBits.toNat
  if bits < signUnit then bits else (signUnit : Int) - 1 - bits

/-- The integer part brought into `[lo, hi]`. -/
def toIntWithin (lo hi : Int) (x : Float) : Int :=
  if x.isNaN then 0
  else if x ≤ Float.ofInt lo then lo
  else if x ≥ Float.ofInt hi then hi
  else
    let whole : Int := if x < 0 then -(((-x).toUInt64.toNat : Nat) : Int) else x.toUInt64.toNat
    max lo (min hi whole)

/-- The integer part, rounding toward zero and keeping the sign of zero. -/
def trunc (x : Float) : Float := if x < 0 then x.ceil else x.floor

instance : Scalar Float where
  toAdd := inferInstance
  toSub := inferInstance
  toMul := inferInstance
  toDiv := inferInstance
  toNeg := inferInstance
  ofInt := Float.ofInt
  decimal m k := OfScientific.ofScientific m true k
  pi := 3.14159265358979323846
  infinity := 1.0 / 0.0
  lt x y := x < y
  le x y := x ≤ y
  eq x y := x == y
  isFinite := Float.isFinite
  abs := Float.abs
  sqrt := Float.sqrt
  cbrt := Float.cbrt
  sin := Float.sin
  cos := Float.cos
  floor := Float.floor
  ceil := Float.ceil
  trunc := trunc
  round := Float.round
  toIntWithin := toIntWithin
  totalLe x y := orderKey x ≤ orderKey y
  text := write Decimal.plain

end Atomistic.Binary64
