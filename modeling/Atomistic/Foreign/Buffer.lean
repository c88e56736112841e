import Atomistic.Error

/-!
# Texts in memory

Texts cross the boundary as bytes that end at the first zero. To be given a text, a caller lends a
buffer; the text is written into it with the final zero if there is room for all of it, and nothing
is written otherwise.
-/

namespace Atomistic.Foreign

/-- The bytes before the first zero. -/
def beforeZero (bytes : List UInt8) : List UInt8 := bytes.takeWhile (· ≠ 0)

/-- The text that some bytes hold. -/
def readText (bytes : List UInt8) : Except Error String :=
  (Utf8.decode (beforeZero bytes)).mapError .utf8

/-- Bytes that a caller lends. -/
abbrev Buffer := List UInt8

namespace Buffer

/-- Write a text at the front of a buffer. -/
def write (b : Buffer) (text : String) : Except Error Buffer :=
  let bytes := Utf8.encode text ++ [0]
  if b.length < bytes.length then .error (.parameter (.bufferTooSmall b.length bytes.length))
  else .ok (bytes ++ b.drop bytes.length)

end Buffer

end Atomistic.Foreign
