import Atomistic.Json.Fault
import Atomistic.Text.Utf8

/-!
# Errors

Everything that can go wrong, by cause. A cause belongs to one of six kinds: the caller gave a bad
parameter, a text is not the JSON that was asked for, bytes are no text, a system refused to answer,
two parts of the library disagree, or an assumption of the library was broken. The last kind stands
for a computation that was abandoned; where its cause has no wording of its own, it is
`Panic.unspecified`.

Scalars that occur in a wording are kept as text, so that errors do not depend on the scalars.
-/

namespace Atomistic

/-- A list of label values or names, as written inside of messages. -/
def commaList (items : List String) : String := ", ".intercalate items

/-- A row of labels, as written inside of messages. -/
def bracketedRow (row : List Int) : String := "[" ++ commaList (row.map toString) ++ "]"

/-- A list of names, as written inside of messages. -/
def bracketedNames (names : List String) : String := "[" ++ commaList names ++ "]"

/-- Parameters that a caller got wrong. -/
inductive ParameterError where
  | cellDeterminant (determinant : String)
  | neighborCutoff (cutoff : String)
  | neighborsNotComputed
  | atomOutOfBounds (atom size : Nat)
  | rowSize (found expected : Nat)
  | rowRepeated (row : List Int) (position : Nat)
  | valuesNotComputed
  | variableRequestedTwice (name : String)
  | variableOnBothAxes (name : String)
  | variableUnknown (name : String)
  | gradientVariableTwice (name : String)
  | calculatorUnknown (name : String)
  | calculatorCutoff (cutoff : String)
  | neighborCountTooLarge (count : Nat)
  | selectedRowOutOfBounds (axis : String) (row count : Nat)
  | selectedRowTwice (axis : String) (row : Nat)
  | selectedNames (axis : String) (expected found : List String)
  | selectedRowUnknown (axis : String) (row : List Int)
  | dummyFeature (row : List Int)
  | nullArgument (name : String)
  | bufferTooSmall (space needed : Nat)
  | namesTooSmall (space needed : Nat)
  | profileFormat (format : String)
  | other (text : String)
  deriving DecidableEq, Repr

def ParameterError.message : ParameterError → String
  | cellDeterminant d => s!"the unit cell matrix must have a positive determinant, got {d}"
  | neighborCutoff c => s!"cutoff must be a finite positive number, got {c}"
  | neighborsNotComputed =>
    "the neighbor list is not initialized, call compute_neighbors first"
  | atomOutOfBounds atom size =>
    s!"atom index {atom} is out of bounds in a system with {size} atoms"
  | rowSize found expected =>
    s!"wrong size for added index: got {found}, but expected {expected}"
  | rowRepeated row position =>
    "can not have the same index value multiple time: " ++ bracketedRow row
      ++ s!" is already present at position {position}"
  | valuesNotComputed =>
    "this descriptor does not contain values yet, it must be used in a calculation first"
  | variableRequestedTwice name => s!"the '{name}' variable is requested multiple times"
  | variableOnBothAxes name =>
    s!"the '{name}' variable is present in both features and environments"
  | variableUnknown name => s!"can not densify along '{name}', "
      ++ "this variable is not part of the features or the environments"
  | gradientVariableTwice name => s!"can not densify: the '{name}' variable "
      ++ "would be present multiple times in the gradients"
  | calculatorUnknown name => s!"unknown calculator with name '{name}'"
  | calculatorCutoff c => s!"cutoff must be a positive number, got {c}"
  | neighborCountTooLarge n => s!"max_neighbors is too large, got {n}"
  | selectedRowOutOfBounds axis row count =>
    s!"selected {axis} row {row} is out of bounds: there are only {count} {axis}"
  | selectedRowTwice axis row => s!"selected {axis} row {row} is present multiple times"
  | selectedNames axis expected found =>
    s!"invalid names for selected {axis}: expected " ++ bracketedNames expected ++ ", got "
      ++ bracketedNames found
  | selectedRowUnknown axis row => s!"selected {axis} " ++ bracketedRow row
      ++ s!" is not part of the default {axis} for this calculator"
  | dummyFeature row => "invalid feature for DummyCalculator: " ++ bracketedRow row
  | nullArgument name => s!"got invalid NULL pointer for {name}"
  | bufferTooSmall space needed =>
    s!"string buffer is not big enough: got space for {space} characters, need {needed}"
  | namesTooSmall space needed =>
    s!"names array is too small: got space for {space} names, need {needed}"
  | profileFormat format =>
    s!"invalid data format in rascal_profiling_get: {format}, "
      ++ "expected 'table', 'short_table' or 'json'"
  | other text => text

/-- Answers that a system failed to give. -/
inductive SystemError where
  | sizeMismatch (size species positions : Nat)
  | recordedFailure (request : String)
  | recordedAtomOutOfBounds
  | callbackMissing (name : String)
  | callbackFailed (name : String) (status : Nat)
  | callbackNull (name : String)
  | other (text : String)
  deriving DecidableEq, Repr

def SystemError.message : SystemError → String
  | sizeMismatch size species positions =>
    s!"system size is {size}, but got {species} species and {positions} positions"
  | recordedFailure request => s!"mock {request} failure"
  | recordedAtomOutOfBounds => "mock atom out of bounds"
  | callbackMissing name => s!"rascal_system_t.{name} function is NULL"
  | callbackFailed name status =>
    s!"call to rascal_system_t.{name} failed with status {status}"
  | callbackNull name => s!"rascal_system_t.{name} returned a NULL pointer with non zero size"
  | other text => text

/-- Disagreements between parts of the library. -/
inductive InternalError where
  | gradientNames (found expected : List String)
  | environmentMissing (row : List Int)
  | gradientsUnsupported (calculator : String)
  | other (text : String)
  deriving DecidableEq, Repr

def InternalError.message : InternalError → String
  | gradientNames found expected => "gradients indexes " ++ bracketedNames found
      ++ " must start with the environments indexes " ++ bracketedNames expected
  | environmentMissing row => "missing environment " ++ bracketedRow row ++ " for gradient row"
  | gradientsUnsupported name =>
    s!"{name} requires gradients, but its environments do not support them"
  | other text => text

/-- Assumptions that were broken. -/
inductive Panic where
  | singularMatrix
  | cellLengths
  | triclinicCell (reason : String)
  | neighborCutoff
  | environmentCutoff (strategy : String)
  | labelName (name : String)
  | labelNameTwice
  | rowOutOfBounds (row count : Nat)
  | labelTooLarge (value : Nat)
  | notText
  | unspecified
  | other (text : String)
  deriving DecidableEq, Repr

def Panic.message : Panic → String
  | singularMatrix => "this matrix is not invertible"
  | cellLengths => "cell lengths must be positive"
  | triclinicCell reason => s!"invalid triclinic cell parameters: {reason}"
  | neighborCutoff => "cutoff must be a finite positive number"
  | environmentCutoff strategy => s!"cutoff must be positive for {strategy}"
  | labelName name => s!"all indexes names must be valid identifiers, '{name}' is not"
  | labelNameTwice => "invalid indexes: the same name is used multiple times"
  | rowOutOfBounds row count => s!"row {row} is out of bounds for indexes with {count} rows"
  | labelTooLarge value => s!"index value {value} is too large"
  | notText => "panic message is not a string"
  | unspecified => "*"
  | other text => text

/-- An error of one of the six kinds, with its cause. -/
inductive Error where
  | parameter (cause : ParameterError)
  | json (fault : Json.Fault) (place : Json.Position)
  | utf8 (fault : Utf8.Fault)
  | system (cause : SystemError)
  | internal (cause : InternalError)
  | panic (cause : Panic)
  deriving DecidableEq, Repr

/-- What is said of an error: its kind, then its cause. -/
def Error.message : Error → String
  | parameter cause => "invalid parameter: " ++ cause.message
  | json fault place => "json error: " ++ fault.messageAt place
  | utf8 fault => "utf8 decoding error: " ++ fault.message
  | system cause => "error in system implementation: " ++ cause.message
  | internal cause => "unexpected error: " ++ cause.message
  | panic cause => "internal error: " ++ cause.message

/-- Is the error about another one, that of reading a text? -/
def Error.hasSource : Error → Bool
  | json .. | utf8 _ => true
  | _ => false

end Atomistic
