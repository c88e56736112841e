import Atomistic.Json.Fault
import Atomistic.Scalar.Binary64

/-!
# Numbers in JSON

A number is scanned into its digits first, which can fail, and then given a value. Integers of 64
bits stay integers; any other number becomes a floating-point number. Its digits are gathered into
a 64-bit significand, what does not fit being dropped, and the significand is then scaled by a power
of ten. The two roundings of this rule are part of it; `Numeral.nearest` is the floating-point
number nearest to the digits.
-/

namespace Atomistic.Json

/-- A reader takes something from the front of a text and leaves the rest. -/
abbrev Reader (β : Type) := List Char → Except Fault (β × List Char)

/-- The digits of a number, as they are written. -/
structure Numeral where
  negative : Bool
  whole : List Nat
  fraction : Option (List Nat)
  /-- Is the exponent negative, and its digits. -/
  exponent : Option (Bool × List Nat)
  deriving DecidableEq, Repr

/-- The value of a digit. -/
def digitValue (c : Char) : Nat := c.toNat - '0'.toNat

/-- The digits at the front of a text. -/
def takeDigits (cs : List Char) : List Nat × List Char :=
  let (digits, rest) := cs.span Char.isDigit
  (digits.map digitValue, rest)

/-- Where a digit is needed: the text may have ended or go on with something else. -/
def missingDigit (rest : List Char) : Fault := if rest.isEmpty then .endInValue else .invalidNumber

/-- The digits before the point; zero has no digit behind it. -/
def readWhole : Reader (List Nat)
  | [] => .error .endInValue
  | '0' :: rest =>
    if (rest.head?.map Char.isDigit).getD false then .error .invalidNumber else .ok ([0], rest)
  | c :: rest => if c.isDigit then .ok (takeDigits (c :: rest)) else .error .invalidNumber

/-- The digits behind a point, if there is one. -/
def readFraction : Reader (Option (List Nat))
  | '.' :: rest =>
    let (digits, rest) := takeDigits rest
    if digits.isEmpty then .error (missingDigit rest) else .ok (some digits, rest)
  | rest => .ok (none, rest)

/-- The sign in front of an exponent: is it negative? -/
def takeSign : List Char → Bool × List Char
  | '+' :: rest => (false, rest)
  | '-' :: rest => (true, rest)
  | rest => (false, rest)

/-- The digits behind the mark of an exponent, if there is one. -/
def readExponent : Reader (Option (Bool × List Nat))
  | c :: rest =>
    if c == 'e' || c == 'E' then
      let (negative, rest) := takeSign rest
      let (digits, rest) := takeDigits rest
      if digits.isEmpty then .error (missingDigit rest) else .ok (some (negative, digits), rest)
    else .ok (none, c :: rest)
  | [] => .ok (none, [])

/-- The digits of a number behind its sign. -/
def readNumeralBody (negative : Bool) : Reader Numeral := fun cs => do
  let (whole, cs) ← readWhole cs
  let (fraction, cs) ← readFraction cs
  let (exponent, cs) ← readExponent cs
  return (⟨negative, whole, fraction, exponent⟩, cs)

/-- The digits of a number. -/
def readNumeral : Reader Numeral
  | '-' :: rest => readNumeralBody true rest
  | cs => readNumeralBody false cs

/-- The number with the given decimal digits, behind those of `start`. -/
def ofDigits (start : Nat) (digits : List Nat) : Nat := digits.foldl (fun n d => 10 * n + d) start

namespace Numeral

/-- Is the number written without a point and an exponent? -/
def isIntegral (n : Numeral) : Bool := n.fraction.isNone && n.exponent.isNone

/-- The integer of a number without a point and an exponent. -/
def toInt? (n : Numeral) : Option Int :=
  if n.isIntegral then
    let magnitude : Int := ofDigits 0 n.whole
    some (if n.negative then -magnitude else magnitude)
  else none

/-- The exponent as an integer. -/
def exponentValue (n : Numeral) : Int :=
  match n.exponent with
  | none => 0
  | some (negative, digits) =>
    let magnitude : Int := ofDigits 0 digits
    if negative then -magnitude else magnitude

/-- The floating-point number nearest to the digits. -/
def nearest (n : Numeral) : Float :=
  let fraction := n.fraction.getD []
  let significand := ofDigits (ofDigits 0 n.whole) fraction
  let exponent := n.exponentValue - fraction.length
  let magnitude := Float.ofScientific significand (exponent < 0) exponent.natAbs
  if n.negative then -magnitude else magnitude

end Numeral

/-- The value of a number. -/
inductive Number where
  | natural (n : Nat)
  /-- A negative integer. -/
  | negative (n : Int)
  | float (x : Float)

/-- What a number is, as said in messages. -/
def Number.describe : Number → String
  | natural n => s!"integer `{n}`"
  | negative n => s!"integer `{n}`"
  | float x => "floating point `" ++ Binary64.write Decimal.data x ++ "`"

/-- The number as a floating-point number. -/
def Number.toFloat : Number → Float
  | natural n => Float.ofNat n
  | negative n => Float.ofInt n
  | float x => x

/-- The largest significand. -/
def maxSignificand : Nat := 0xFFFFFFFFFFFFFFFF

/-- Gather digits behind `start` while the significand fits: it, and how many digits are left. -/
def gatherDigits (start : Nat) : List Nat → Nat × Nat
  | [] => (start, 0)
  | d :: rest =>
    if maxSignificand < 10 * start + d then (start, rest.length + 1)
    else gatherDigits (10 * start + d) rest

/-- The largest power of ten that scales in one step. -/
def maxScale : Nat := 308

/-- A power of ten. -/
def powerOfTen (n : Nat) : Float := Float.ofScientific 1 false n

/-- `f · 10 ^ e`, in steps that scale by at most `10 ^ 308`. -/
def scaleByTen (f : Float) (e : Int) : Except Fault Float :=
  if 0 ≤ e then
    if e.toNat ≤ maxScale then
      let scaled := f * powerOfTen e.toNat
      if scaled.isInf then .error .numberOutOfRange else .ok scaled
    else if f == 0 then .ok f
    else .error .numberOutOfRange
  else if e.natAbs ≤ maxScale then .ok (f / powerOfTen e.natAbs)
  else if f == 0 then .ok f
  else scaleByTen (f / powerOfTen maxScale) (e + maxScale)
termination_by e.natAbs
decreasing_by simp only [maxScale] at *; omega

/-- The largest exponent that is read. -/
def maxExponent : Nat := 0x7FFFFFFF

/-- The exponent of the last gathered digit brought into the range of exponents. -/
def saturate (e : Int) : Int := max (-0x80000000) (min 0x7FFFFFFF e)

/-- The magnitude of a number with a point, an exponent or too many digits. -/
def Numeral.magnitude (n : Numeral) : Except Fault Float :=
  let (significand, dropped) := gatherDigits 0 n.whole
  let fraction := n.fraction.getD []
  let (significand, left) := gatherDigits significand fraction
  let start : Int := (dropped : Int) - ((fraction.length - left : Nat) : Int)
  match n.exponent with
  | none => scaleByTen (Float.ofNat significand) start
  | some (negative, digits) =>
    if maxExponent < ofDigits 0 digits then
      if significand ≠ 0 && !negative then .error .numberOutOfRange else .ok 0
    else scaleByTen (Float.ofNat significand) (saturate (start + n.exponentValue))

/-- The value of a number. -/
def Numeral.value (n : Numeral) : Except Fault Number :=
  let integer := ofDigits 0 n.whole
  if n.isIntegral && integer ≤ maxSignificand then
    if !n.negative then .ok (.natural integer)
    else if 0 < integer && integer ≤ 0x8000000000000000 then .ok (.negative (-integer))
    else .ok (.float (-Float.ofNat integer))
  else do
    let magnitude ← n.magnitude
    return .float (if n.negative then -magnitude else magnitude)

/-- A number with its value. -/
def readNumber : Reader Number := fun cs => do
  let (numeral, cs) ← readNumeral cs
  return (← numeral.value, cs)

end Atomistic.Json
