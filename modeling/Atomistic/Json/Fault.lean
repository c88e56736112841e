/-!
# What can be wrong with a JSON text

The causes for which a JSON text is refused: it is not JSON, or it is not the data that was asked
for. Each has one wording, `Fault.message`. Where in the text the fault was found is told behind it;
how lines and columns are counted is up to whoever reads the text.
-/

namespace Atomistic.Json

/-- A problem in a JSON text. -/
inductive Fault where
  | endInValue
  | endInList
  | endInObject
  | endInString
  | expectedValue
  | expectedIdentifier
  | expectedColon
  | expectedListCommaOrEnd
  | expectedObjectCommaOrEnd
  | keyNotString
  | trailingComma
  | trailingCharacters
  | invalidNumber
  | numberOutOfRange
  | invalidEscape
  | loneSurrogate
  | endOfHexEscape
  | controlCharacter
  | tooDeep
  | missingField (name : String)
  | duplicateField (name : String)
  | unknownField (name : String) (known : List String)
  | wrongLength (found : Nat) (record : String) (fields : Nat)
  | wrongType (found expected : String)
  | wrongValue (found expected : String)
  deriving DecidableEq, Repr

/-- A field name as it is quoted in messages. -/
def quoteName (name : String) : String := "`" ++ name ++ "`"

/-- The fields that would have been accepted, in words. -/
def alternatives : List String → String
  | [] => "there are no fields"
  | [a] => "expected " ++ quoteName a
  | [a, b] => "expected " ++ quoteName a ++ " or " ++ quoteName b
  | names => "expected one of " ++ ", ".intercalate (names.map quoteName)

/-- What is said of a problem. -/
def Fault.message : Fault → String
  | endInValue => "EOF while parsing a value"
  | endInList => "EOF while parsing a list"
  | endInObject => "EOF while parsing an object"
  | endInString => "EOF while parsing a string"
  | expectedValue => "expected value"
  | expectedIdentifier => "expected ident"
  | expectedColon => "expected `:`"
  | expectedListCommaOrEnd => "expected `,` or `]`"
  | expectedObjectCommaOrEnd => "expected `,` or `\x7d`"
  | keyNotString => "key must be a string"
  | trailingComma => "trailing comma"
  | trailingCharacters => "trailing characters"
  | invalidNumber => "invalid number"
  | numberOutOfRange => "number out of range"
  | invalidEscape => "invalid escape"
  | loneSurrogate => "lone leading surrogate in hex escape"
  | endOfHexEscape => "unexpected end of hex escape"
  | controlCharacter => "control character (\\u0000-\\u001F) found while parsing a string"
  | tooDeep => "recursion limit exceeded"
  | missingField name => "missing field " ++ quoteName name
  | duplicateField name => "duplicate field " ++ quoteName name
  | unknownField name known => "unknown field " ++ quoteName name ++ ", " ++ alternatives known
  | wrongLength found record fields =>
    s!"invalid length {found}, expected struct {record} with {fields} elements"
  | wrongType found expected => s!"invalid type: {found}, expected {expected}"
  | wrongValue found expected => s!"invalid value: {found}, expected {expected}"

/-- A place in a text. There is no line 0, it says that the place is not known. -/
structure Position where
  line : Nat
  column : Nat
  deriving DecidableEq, Repr

/-- Where a fault is found in a text. -/
abbrev Locator := String → Fault → Position

/-- No place is known. -/
def Locator.unknown : Locator := fun _ _ => ⟨0, 0⟩

/-- What is said of a fault at some place. -/
def Fault.messageAt (fault : Fault) (place : Position) : String :=
  if place.line = 0 then fault.message
  else fault.message ++ s!" at line {place.line} column {place.column}"

end Atomistic.Json
