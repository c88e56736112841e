import Atomistic.Decimal.Shortest

/-!
# Layouts of decimal numbers

The digits of a number are one thing, where its point stands another. A `Layout` says for which
exponents the point is written in place, whether an integral value keeps a fraction, and how an
exponent is marked. The two layouts of this library are `plain`, the one of messages, and `data`,
the one of data formats.
-/

namespace Atomistic.Decimal

/-- The decisions of a number format. -/
structure Layout where
  /-- Exponents of the first digit for which no exponent is written, or none for all of them. -/
  positional : Option (Int × Int)
  /-- Is an integral value followed by a point and a zero? -/
  keepsFraction : Bool
  /-- Between two equally near candidates `k` and `k + 1`, is `k + 1` taken? -/
  tieUp : Nat → Bool

/-- Messages write every digit in place, and integral values without a point. -/
def plain : Layout := ⟨none, false, fun _ => true⟩

/-- Data formats write an exponent beyond sixteen places before the point or four zeros after it,
and give every number a point or an exponent; a tie goes to the even digit. -/
def data : Layout := ⟨some (-5, 15), true, fun k => k % 2 == 1⟩

/-- A run of zeros. -/
def zeros (n : Nat) : String := String.ofList (List.replicate n '0')

/-- Digits with the point after the first `point` of them, which may lie outside of the digits. -/
def writeInPlace (keepsFraction : Bool) (digits : String) (point : Int) : String :=
  let count : Int := digits.length
  if count ≤ point then
    digits ++ zeros (point - count).toNat ++ (if keepsFraction then ".0" else "")
  else if 0 < point then
    let n := point.toNat
    String.ofList (digits.toList.take n) ++ "." ++ String.ofList (digits.toList.drop n)
  else
    "0." ++ zeros (-point).toNat ++ digits

/-- Digits with the point after the first one, followed by a signed exponent. -/
def writeWithExponent (digits : String) (exponent : Int) : String :=
  let rest := String.ofList (digits.toList.drop 1)
  String.ofList (digits.toList.take 1) ++ (if rest.isEmpty then "" else "." ++ rest)
    ++ (if exponent < 0 then "e-" else "e+") ++ toString exponent.natAbs

/-- The text of a positive number. -/
def Layout.write (layout : Layout) (d : Digits) : String :=
  let digits := toString d.digits
  let point := digits.length + d.exponent
  match layout.positional with
  | none => writeInPlace layout.keepsFraction digits point
  | some (low, high) =>
    if low ≤ point - 1 && point - 1 ≤ high then writeInPlace layout.keepsFraction digits point
    else writeWithExponent digits (point - 1)

/-- The text of zero. -/
def Layout.zero (layout : Layout) : String := if layout.keepsFraction then "0.0" else "0"

end Atomistic.Decimal
