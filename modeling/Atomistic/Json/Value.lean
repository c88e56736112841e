import Atomistic.Json.Literal

/-!
# JSON values

Reading any JSON value. Values may be nested in each other up to a fixed depth. The first problem in
the text is the one that is reported.
-/

namespace Atomistic.Json

/-- A JSON value; numbers keep their digits, and objects the order of their fields. -/
inductive Value where
  | null
  | bool (b : Bool)
  | number (n : Numeral)
  | string (s : String)
  | list (items : List Value)
  | object (fields : List (String × Value))
  deriving Repr

/-- How deep lists and objects may be nested. -/
def maxDepth : Nat := 127

/-- Is there another item in a list? With one, the text goes on with it. `first` tells that no item
was read before. -/
def nextItem (first : Bool) (cs : List Char) : Except Fault (Bool × List Char) :=
  match skipBlanks cs with
  | [] => .error .endInList
  | ']' :: rest => .ok (false, ']' :: rest)
  | c :: rest =>
    if first then .ok (true, c :: rest)
    else if c == ',' then
      match skipBlanks rest with
      | [] => .error .endInValue
      | ']' :: _ => .error .trailingComma
      | rest => .ok (true, rest)
    else .error .expectedListCommaOrEnd

/-- Is there another field in an object? With one, the text goes on behind the opening quote of its
name. -/
def nextField (first : Bool) (cs : List Char) : Except Fault (Bool × List Char) :=
  match skipBlanks cs with
  | [] => .error .endInObject
  | '}' :: rest => .ok (false, '}' :: rest)
  | c :: rest =>
    if first then if c == '"' then .ok (true, rest) else .error .keyNotString
    else if c == ',' then
      match skipBlanks rest with
      | [] => .error .endInValue
      | '"' :: rest => .ok (true, rest)
      | '}' :: _ => .error .trailingComma
      | _ => .error .keyNotString
    else .error .expectedObjectCommaOrEnd

/-- Go on behind the colon between a name and its value. -/
def readColon (cs : List Char) : Except Fault (List Char) :=
  match skipBlanks cs with
  | [] => .error .endInObject
  | ':' :: rest => .ok rest
  | _ => .error .expectedColon

/-- Go on behind the end of a list. -/
def endList (cs : List Char) : Except Fault (List Char) :=
  match skipBlanks cs with
  | [] => .error .endInList
  | ']' :: rest => .ok rest
  | ',' :: rest =>
    match skipBlanks rest with
    | ']' :: _ => .error .trailingComma
    | _ => .error .trailingCharacters
  | _ => .error .trailingCharacters

/-- Go on behind the end of an object. -/
def endObject (cs : List Char) : Except Fault (List Char) :=
  match skipBlanks cs with
  | [] => .error .endInObject
  | '}' :: rest => .ok rest
  | ',' :: _ => .error .trailingComma
  | _ => .error .trailingCharacters

mutual

/-- A value, in which lists and objects are nested at most `depth` deep. Of any two steps one takes a
character of the text, so that twice as much `fuel` as there are characters is enough. -/
def readValue (fuel depth : Nat) (cs : List Char) : Except Fault (Value × List Char) :=
  match fuel with
  | 0 => .error .endInValue
  | fuel + 1 =>
    match skipBlanks cs with
    | [] => .error .endInValue
    | 'n' :: rest => return (.null, ← readWord ['u', 'l', 'l'] rest)
    | 't' :: rest => return (.bool true, ← readWord ['r', 'u', 'e'] rest)
    | 'f' :: rest => return (.bool false, ← readWord ['a', 'l', 's', 'e'] rest)
    | '"' :: rest => do
      let (s, rest) ← readString rest
      return (.string s, rest)
    | '[' :: rest =>
      match depth with
      | 0 => .error .tooDeep
      | depth + 1 => do
        let (items, rest) ← readItems fuel depth [] rest
        return (.list items, ← endList rest)
    | '{' :: rest =>
      match depth with
      | 0 => .error .tooDeep
      | depth + 1 => do
        let (fields, rest) ← readFields fuel depth [] rest
        return (.object fields, ← endObject rest)
    | c :: rest =>
      if c == '-' || c.isDigit then do
        let (numeral, rest) ← readNumeral (c :: rest)
        let _ ← numeral.value
        return (.number numeral, rest)
      else .error .expectedValue

/-- The items of a list, after those `before`, in reverse. -/
def readItems (fuel depth : Nat) (before : List Value) (cs : List Char) :
    Except Fault (List Value × List Char) :=
  match fuel with
  | 0 => .error .endInList
  | fuel + 1 =>
    match nextItem before.isEmpty cs with
    | .error fault => .error fault
    | .ok (false, rest) => .ok (before.reverse, rest)
    | .ok (true, rest) =>
      match readValue fuel depth rest with
      | .error fault => .error fault
      | .ok (item, rest) => readItems fuel depth (item :: before) rest

/-- The fields of an object, after those `before`, in reverse. -/
def readFields (fuel depth : Nat) (before : List (String × Value)) (cs : List Char) :
    Except Fault (List (String × Value) × List Char) :=
  match fuel with
  | 0 => .error .endInObject
  | fuel + 1 =>
    match nextField before.isEmpty cs with
    | .error fault => .error fault
    | .ok (false, rest) => .ok (before.reverse, rest)
    | .ok (true, rest) =>
      match readString rest with
      | .error fault => .error fault
      | .ok (name, rest) =>
        match readColon rest with
        | .error fault => .error fault
        | .ok rest =>
          match readValue fuel depth rest with
          | .error fault => .error fault
          | .ok (value, rest) => readFields fuel depth ((name, value) :: before) rest

end

/-- Nothing but white space may be left of a text. -/
def endText (cs : List Char) : Except Fault Unit :=
  if (skipBlanks cs).isEmpty then .ok () else .error .trailingCharacters

/-- The value that a text holds. -/
def Value.parse (text : String) : Except Fault Value := do
  let cs := text.toList
  let (value, rest) ← readValue (2 * cs.length + 1) maxDepth cs
  endText rest
  return value

/-- A field of an object, absent when it is null. -/
def Value.field? (v : Value) (name : String) : Option Value :=
  match v with
  | .object fields =>
    match fields.lookup name with
    | some .null => none
    | found => found
  | _ => none

end Atomistic.Json
