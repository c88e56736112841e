import Atomistic.Json.Numeral

/-!
# Words and strings in JSON

Reading the literals of JSON that are not numbers. A string ends at its closing quote; inside of it,
a backslash introduces an escape, and characters outside of the first plane may be written as two
escapes, one for each half of a surrogate pair.
-/

namespace Atomistic.Json

/-- White space between the tokens of a text. -/
def isBlank (c : Char) : Bool := c == ' ' || c == '\n' || c == '\t' || c == '\r'

def skipBlanks (cs : List Char) : List Char := cs.dropWhile isBlank

/-- Go on behind a word that has to come next. -/
def readWord : (word : List Char) → List Char → Except Fault (List Char)
  | [], rest => .ok rest
  | _ :: _, [] => .error .endInValue
  | w :: word, c :: rest => if w == c then readWord word rest else .error .expectedIdentifier

/-- The value of a hexadecimal digit. -/
def hexValue? (c : Char) : Option Nat :=
  if c.isDigit then some (digitValue c)
  else if 'a' ≤ c && c ≤ 'f' then some (c.toNat - 'a'.toNat + 10)
  else if 'A' ≤ c && c ≤ 'F' then some (c.toNat - 'A'.toNat + 10)
  else none

/-- Are there fewer than four bytes in a text? -/
def isShort (cs : List Char) : Bool := (cs.take 4).foldl (fun n c => n + c.utf8Size) 0 < 4

/-- The rest of a text behind something that was read from its front. -/
abbrev Rest (cs : List Char) := { rest : List Char // rest.length < cs.length }

/-- Four hexadecimal digits. -/
def readHex : (cs : List Char) → Except Fault (Nat × Rest cs)
  | a :: b :: c :: d :: rest =>
    match hexValue? a, hexValue? b, hexValue? c, hexValue? d with
    | some a, some b, some c, some d =>
      .ok (((a * 16 + b) * 16 + c) * 16 + d, ⟨rest, by simp; omega⟩)
    | _, _, _, _ => .error .invalidEscape
  | cs => .error (if isShort cs then .endInString else .invalidEscape)

/-- The first code of the leading halves of surrogate pairs. -/
def leadingStart : Nat := 0xD800

/-- The first code of the trailing halves of surrogate pairs. -/
def trailingStart : Nat := 0xDC00

/-- The first code behind the surrogates. -/
def surrogateEnd : Nat := 0xE000

/-- The character of a surrogate pair whose leading half was read. -/
def readTrailing (leading : Nat) : (cs : List Char) → Except Fault (Char × Rest cs)
  | [] => .error .endInString
  | '\\' :: [] => .error .endInString
  | '\\' :: 'u' :: rest => do
    let (trailing, ⟨rest, shorter⟩) ← readHex rest
    if trailing < trailingStart || surrogateEnd ≤ trailing then throw .loneSurrogate
    let code := 0x10000 + (leading - leadingStart) * 0x400 + (trailing - trailingStart)
    return (Char.ofNat code, ⟨rest, by simp; omega⟩)
  | _ => .error .endOfHexEscape

/-- The character of an escape with hexadecimal digits. -/
def readCodeEscape (cs : List Char) : Except Fault (Char × Rest cs) := do
  let (code, ⟨rest, shorter⟩) ← readHex cs
  if code < leadingStart || surrogateEnd ≤ code then return (Char.ofNat code, ⟨rest, shorter⟩)
  else if trailingStart ≤ code then throw .loneSurrogate
  else
    let (c, ⟨rest, shorter'⟩) ← readTrailing code rest
    return (c, ⟨rest, by omega⟩)

/-- The character of an escape of one letter. -/
def simpleEscape? : Char → Option Char
  | '"' => some '"'
  | '\\' => some '\\'
  | '/' => some '/'
  | 'b' => some '\x08'
  | 'f' => some '\x0c'
  | 'n' => some '\n'
  | 'r' => some '\r'
  | 't' => some '\t'
  | _ => none

/-- The character of an escape, behind its backslash. -/
def readEscape : (cs : List Char) → Except Fault (Char × Rest cs)
  | [] => .error .endInString
  | 'u' :: rest => do
    let (c, ⟨rest, shorter⟩) ← readCodeEscape rest
    return (c, ⟨rest, by simp; omega⟩)
  | c :: rest =>
    match simpleEscape? c with
    | some c => .ok (c, ⟨rest, by simp⟩)
    | none => .error .invalidEscape

/-- The characters of a string behind its opening quote, after those `before`, in reverse. -/
def readCharacters (before : List Char) (cs : List Char) : Except Fault (List Char × List Char) :=
  match cs with
  | [] => .error .endInString
  | '"' :: rest => .ok (before.reverse, rest)
  | '\\' :: rest =>
    match readEscape rest with
    | .ok (c, ⟨rest, _⟩) => readCharacters (c :: before) rest
    | .error fault => .error fault
  | c :: rest =>
    if c.toNat < 0x20 then .error .controlCharacter else readCharacters (c :: before) rest
termination_by cs.length
decreasing_by all_goals simp_all; try omega

/-- A string behind its opening quote. -/
def readString : Reader String := fun cs => do
  let (chars, rest) ← readCharacters [] cs
  return (String.ofList chars, rest)

end Atomistic.Json
