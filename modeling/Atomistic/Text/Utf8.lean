/-!
# UTF-8

Reading a text from its bytes. A character takes one to four bytes; the first one gives their
number and the range of the second one. Bytes that are no text are reported by the number of bytes
read before them, and by how many of them are wrong together; the last character may also just be
cut short.
-/

namespace Atomistic.Utf8

/-- Why bytes are not a text. -/
structure Fault where
  /-- How many bytes before the fault are a text. -/
  validUpTo : Nat
  /-- How many bytes are wrong there, none for a character cut short by the end. -/
  length : Option Nat
  deriving DecidableEq, Repr

/-- What is said of a fault. -/
def Fault.message (f : Fault) : String :=
  match f.length with
  | some n => s!"invalid utf-8 sequence of {n} bytes from index {f.validUpTo}"
  | none => s!"incomplete utf-8 byte sequence from index {f.validUpTo}"

/-- A byte that may stand behind the first two of a character. -/
def isContinuation (b : UInt8) : Bool := 0x80 ≤ b && b ≤ 0xBF

/-- How many bytes follow a first byte, and between which bounds the next one lies. -/
def following (first : UInt8) : Option (Nat × UInt8 × UInt8) :=
  if first ≤ 0x7F then some (0, 0x80, 0xBF)
  else if first < 0xC2 then none
  else if first ≤ 0xDF then some (1, 0x80, 0xBF)
  else if first = 0xE0 then some (2, 0xA0, 0xBF)
  else if first = 0xED then some (2, 0x80, 0x9F)
  else if first ≤ 0xEF then some (2, 0x80, 0xBF)
  else if first = 0xF0 then some (3, 0x90, 0xBF)
  else if first < 0xF4 then some (3, 0x80, 0xBF)
  else if first = 0xF4 then some (3, 0x80, 0x8F)
  else none

/-- Six payload bits behind the bits read so far. -/
def append (code : Nat) (b : UInt8) : Nat := code * 64 + b.toNat % 64

/-- The payload of a first byte with `count` bytes behind it. -/
def payload (first : UInt8) (count : Nat) : Nat :=
  if count = 0 then first.toNat else first.toNat % Nat.pow 2 (6 - count)

/-- Read the rest of a character, `count` bytes that continue it: the code, or how many bytes are
wrong together. `seen` bytes of the character came before. -/
def readTail : (count seen code : Nat) → List UInt8 → Except (Option Nat) Nat
  | 0, _, code, _ => .ok code
  | _ + 1, _, _, [] => .error none
  | count + 1, seen, code, b :: rest =>
    if isContinuation b then readTail count (seen + 1) (append code b) rest
    else .error (some seen)

/-- The first character of some bytes, and how many bytes follow its first one. -/
def readChar (first : UInt8) (rest : List UInt8) : Except (Option Nat) (Char × Nat) :=
  match following first with
  | none => .error (some 1)
  | some (0, _, _) => .ok (Char.ofNat first.toNat, 0)
  | some (count + 1, low, high) =>
    match rest with
    | [] => .error none
    | second :: rest =>
      if low ≤ second && second ≤ high then do
        let code ← readTail count 2 (append (payload first (count + 1)) second) rest
        return (Char.ofNat code, count + 1)
      else .error (some 1)

/-- Read characters until the bytes end, `position` bytes having been read before. -/
def decodeFrom (position : Nat) (bytes : List UInt8) : Except Fault (List Char) :=
  match bytes with
  | [] => .ok []
  | first :: rest =>
    match readChar first rest with
    | .error length => .error ⟨position, length⟩
    | .ok (c, count) => do
      let chars ← decodeFrom (position + 1 + count) (rest.drop count)
      return c :: chars
termination_by bytes.length
decreasing_by simp only [List.length_drop, List.length_cons]; omega

/-- The text that some bytes hold. -/
def decode (bytes : List UInt8) : Except Fault String :=
  (decodeFrom 0 bytes).map String.ofList

/-- The bytes of a text. -/
def encode (s : String) : List UInt8 := s.toUTF8.data.toList

end Atomistic.Utf8
