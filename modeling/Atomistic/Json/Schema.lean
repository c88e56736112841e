import Atomistic.Json.Value
import Atomistic.Text.Quoted

/-!
# Records read from JSON

A schema names the fields of a record and the kind of value that each of them holds. A record is
written as an object with these fields in any order, or as a list of their values in the order of
the schema. Reading reports the first problem in the text: an unknown or repeated name as soon as
it is read, a missing field when the object closes, a value of a wrong kind where it stands.
-/

namespace Atomistic.Json

/-- The kinds of values that fields hold. -/
inductive Kind where
  | number
  | natural
  | integer
  | text
  | flag
  deriving DecidableEq, Repr

namespace Kind

/-- The values of a kind. -/
abbrev Value : Kind → Type
  | number => Float
  | natural => Nat
  | integer => Int
  | text => String
  | flag => Bool

/-- What is expected for a kind, in words. -/
def expected : Kind → String
  | number => "f64"
  | natural => "usize"
  | integer => "isize"
  | text => "a string"
  | flag => "a boolean"

end Kind

/-- The fault of a value that is not what was expected. It is read first, unless it is a list or an
object, and its own faults come before. -/
def unexpected (expected : String) (cs : List Char) : Fault :=
  let wrong (found : String) : Fault := .wrongType found expected
  let afterWord (word : List Char) (rest : List Char) (found : String) : Fault :=
    match readWord word rest with
    | .ok _ => wrong found
    | .error fault => fault
  match cs with
  | 'n' :: rest => afterWord ['u', 'l', 'l'] rest "null"
  | 't' :: rest => afterWord ['r', 'u', 'e'] rest "boolean `true`"
  | 'f' :: rest => afterWord ['a', 'l', 's', 'e'] rest "boolean `false`"
  | '"' :: rest =>
    match readString rest with
    | .ok (s, _) => wrong ("string " ++ Text.quote s)
    | .error fault => fault
  | '[' :: _ => wrong "sequence"
  | '{' :: _ => wrong "map"
  | c :: rest =>
    if c == '-' || c.isDigit then
      match readNumber (c :: rest) with
      | .ok (n, _) => wrong n.describe
      | .error fault => fault
    else .expectedValue
  | [] => .expectedValue

/-- A natural number that a count can hold. -/
def Number.toNatural (n : Number) : Except Fault Nat :=
  match n with
  | .natural k => .ok k
  | .negative _ => .error (.wrongValue n.describe Kind.natural.expected)
  | .float _ => .error (.wrongType n.describe Kind.natural.expected)

/-- An integer of 64 bits. -/
def Number.toInteger (n : Number) : Except Fault Int :=
  match n with
  | .natural k =>
    if k < 0x8000000000000000 then .ok k else .error (.wrongValue n.describe Kind.integer.expected)
  | .negative k => .ok k
  | .float _ => .error (.wrongType n.describe Kind.integer.expected)

/-- A number, whose value is then taken as one of some kind. -/
def readNumeric {β : Type} (kind : Kind) (take : Number → Except Fault β) (cs : List Char) :
    Except Fault (β × List Char) :=
  match skipBlanks cs with
  | [] => .error .endInValue
  | c :: rest =>
    if c == '-' || c.isDigit then do
      let (n, rest) ← readNumber (c :: rest)
      return (← take n, rest)
    else .error (unexpected kind.expected (c :: rest))

/-- A value of a kind. -/
def Kind.read : (kind : Kind) → Reader kind.Value
  | number => readNumeric number fun n => .ok n.toFloat
  | natural => readNumeric natural Number.toNatural
  | integer => readNumeric integer Number.toInteger
  | text => fun cs =>
    match skipBlanks cs with
    | [] => .error .endInValue
    | '"' :: rest => readString rest
    | rest => .error (unexpected text.expected rest)
  | flag => fun cs =>
    match skipBlanks cs with
    | [] => .error .endInValue
    | 't' :: rest => return (true, ← readWord ['r', 'u', 'e'] rest)
    | 'f' :: rest => return (false, ← readWord ['a', 'l', 's', 'e'] rest)
    | rest => .error (unexpected flag.expected rest)

/-- A type of records: its name, and its fields in order. -/
structure Schema where
  name : String
  fields : List (String × Kind)

namespace Schema

/-- The kind of a field. -/
abbrev kind (s : Schema) (i : Fin s.fields.length) : Kind := (s.fields.get i).2

/-- The name of a field. -/
def fieldName (s : Schema) (i : Fin s.fields.length) : String := (s.fields.get i).1

/-- A record: a value for each field. -/
abbrev Row (s : Schema) := (i : Fin s.fields.length) → (s.kind i).Value

/-- A record of which some fields are known. -/
abbrev Partial (s : Schema) := (i : Fin s.fields.length) → Option (s.kind i).Value

variable {s : Schema}

/-- A record with one more field known. -/
def Partial.set (p : s.Partial) (i : Fin s.fields.length) (v : (s.kind i).Value) : s.Partial :=
  fun j => if h : i = j then some (h ▸ v) else p j

/-- The whole record; the first missing field is reported. -/
def Partial.complete (p : s.Partial) : Except Fault s.Row :=
  match h : (List.finRange s.fields.length).find? fun i => (p i).isNone with
  | some i => .error (.missingField (s.fieldName i))
  | none => .ok fun i => (p i).get (by
      have := List.find?_eq_none.1 h i (List.mem_finRange i)
      simpa [Option.isSome_iff_ne_none] using this)

/-- The field of a name. -/
def find? (s : Schema) (name : String) : Option (Fin s.fields.length) :=
  (List.finRange s.fields.length).find? fun i => s.fieldName i == name

/-- The values of a list, one per field in order. -/
def readList (s : Schema) : (fields : List (Fin s.fields.length)) → (first : Bool) → s.Partial →
    Reader s.Partial
  | [], _, p, cs => .ok (p, cs)
  | i :: fields, first, p, cs => do
    let (more, cs) ← nextItem first cs
    if !more then throw (.wrongLength i s.name s.fields.length)
    let (v, cs) ← (s.kind i).read cs
    readList s fields false (p.set i v) cs

/-- The fields of an object. No name is accepted twice, so there are at most `limit` of them. -/
def readObject (s : Schema) : (limit : Nat) → (first : Bool) → s.Partial → Reader s.Partial
  | limit, first, p, cs => do
    let (more, cs) ← nextField first cs
    if !more then return (p, cs)
    let (name, cs) ← readString cs
    match s.find? name, limit with
    | none, _ => throw (.unknownField name (s.fields.map (·.1)))
    | some _, 0 => throw (.duplicateField name)
    | some i, limit + 1 =>
      if (p i).isSome then throw (.duplicateField name)
      let (v, cs) ← (s.kind i).read (← readColon cs)
      readObject s limit false (p.set i v) cs

/-- A record at the front of a text. -/
def read (s : Schema) : Reader s.Row := fun cs =>
  match skipBlanks cs with
  | [] => .error .endInValue
  | '[' :: rest => do
    let (p, rest) ← s.readList (List.finRange s.fields.length) true (fun _ => none) rest
    return (← p.complete, ← endList rest)
  | '{' :: rest => do
    let (p, rest) ← s.readObject s.fields.length true (fun _ => none) rest
    return (← p.complete, ← endObject rest)
  | rest => .error (unexpected s!"struct {s.name}" rest)

/-- The record that a text holds. -/
def parse (s : Schema) (text : String) : Except Fault s.Row := do
  let (row, rest) ← s.read text.toList
  endText rest
  return row

end Schema

end Atomistic.Json
