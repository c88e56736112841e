import Atomistic.Error

/-!
# Statuses

Across the boundary to programs in other languages, a call answers a number only. Every kind of
error has one; the text of the error is kept for those who ask for it.
-/

namespace Atomistic.Foreign

/-- What a call answers. -/
inductive Status where
  | success
  | invalidParameter
  | json
  | utf8
  | system
  | unknown
  | panic
  deriving DecidableEq, Repr

namespace Status

/-- The number of a status. -/
def code : Status → Nat
  | success => 0
  | invalidParameter => 1
  | json => 2
  | utf8 => 3
  | system => 128
  | unknown => 254
  | panic => 255

/-- The status of a number. -/
def ofCode? (code : Nat) : Option Status :=
  [success, invalidParameter, json, utf8, system, unknown, panic].find? fun s => s.code == code

/-- The status of an error. -/
def ofError : Error → Status
  | .parameter _ => invalidParameter
  | .json .. => json
  | .utf8 _ => utf8
  | .system _ => system
  | .internal _ => unknown
  | .panic _ => panic

/-- The status of an outcome. -/
def ofOutcome {β : Type} : Except Error β → Status
  | .ok _ => success
  | .error e => ofError e

end Status

/-- A text without zero characters, which would end it early: they are written as a backslash and
the digit 0. -/
def escapeZeros (text : String) : String :=
  String.ofList (text.toList.flatMap fun c => if c == '\x00' then ['\\', '0'] else [c])

/-- A text without zero characters. There is none for a text that has one. -/
def zeroFree? (text : String) : Option String :=
  if text.toList.contains '\x00' then none else some text

/-- What is kept of an error: its message, or nothing if it can not be kept. -/
def errorText (e : Error) : String := (zeroFree? (escapeZeros e.message)).getD ""

end Atomistic.Foreign
