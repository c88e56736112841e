import Atomistic.Descriptor.Densify
import Atomistic.Foreign.Buffer
import Atomistic.Foreign.Callbacks
import Atomistic.Foreign.Session

/-!
# Calls

The calls that programs in other languages make. Each of them checks first, in the order of its
parameters, that the caller gave all that is needed. Where a call leaves a text, the place is a
buffer; where it leaves a table, the place is a view of it.
-/

namespace Atomistic.Foreign

/-- A table as it is left to a caller: its entries row after row, unless there are none, and its
numbers of rows and columns. -/
structure View (β : Type) where
  entries : Option (List β)
  rows : Nat
  columns : Nat
  deriving DecidableEq, Repr

namespace View

variable {β : Type}

/-- The view of a table that is not there. -/
def absent : View β := ⟨none, 0, 0⟩

/-- The view of a list of entries, row after row. -/
def ofEntries (entries : List β) (rows columns : Nat) : View β :=
  ⟨if entries.isEmpty then none else some entries, rows, columns⟩

/-- The view of a table of values. -/
def ofDense (d : Dense β) : View β := ofEntries d.entries.toList d.rows d.columns

/-- The view of a table of labels. -/
def ofLabels (t : Labels) : View Int := ofEntries t.flat t.count t.size

end View

namespace Call

/-- Leave a text in a buffer that the caller lends. -/
def leaveText (name : String) (text : String) : Traced (Exchange (Option Buffer)) Unit := do
  let buffer ← Traced.ofExcept (given name (← Traced.value).2)
  leave (some (← Traced.ofExcept (buffer.write text)))

/-- The texts that name variables. -/
def readNames (pointers : Option (List (Option (List UInt8)))) (count : Nat) :
    Except Error (List String) :=
  if count = 0 then .ok []
  else do
    let pointers ← given "variables" pointers
    (pointers.take count).mapM fun bytes => do readText (← given "variable" bytes)

/-- Create a calculator, and leave its handle. -/
def createCalculator (locate : Json.Locator) (name parameters : Option (List UInt8)) :
    Traced (Exchange (Option Handle)) Unit := do
  let name ← Traced.ofExcept (given "name" name)
  let parameters ← Traced.ofExcept (given "parameters" parameters)
  let name ← Traced.ofExcept (readText name)
  let parameters ← Traced.ofExcept (readText parameters)
  let calculator ← Traced.ofExcept (Calculator.create locate name parameters)
  let handle := (← session).calculators.next
  change fun s => { s with calculators := s.calculators.insert calculator }
  leave (some handle)

/-- Free a calculator. -/
def freeCalculator (calculator : Option Handle) : Traced (Exchange Unit) Unit :=
  change fun s => { s with calculators := s.calculators.remove calculator }

/-- Leave the name of a calculator. -/
def calculatorName (calculator : Option Handle) : Traced (Exchange (Option Buffer)) Unit := do
  leaveText "name" (← Call.calculator calculator).name

/-- Leave the parameters of a calculator. -/
def calculatorParameters (calculator : Option Handle) : Traced (Exchange (Option Buffer)) Unit := do
  leaveText "parameters" (← Call.calculator calculator).parameters

/-- Create a descriptor, and leave its handle. -/
def createDescriptor : Traced (Exchange (Option Handle)) Unit := do
  let handle := (← session).descriptors.next
  change fun s => { s with descriptors := s.descriptors.insert .new }
  leave (some handle)

/-- Free a descriptor. -/
def freeDescriptor (descriptor : Option Handle) : Traced (Exchange Unit) Unit :=
  change fun s => { s with descriptors := s.descriptors.remove descriptor }

/-- Leave the values of a descriptor. -/
def values (descriptor : Option Handle) (missing : List String) :
    Traced (Exchange (View Float)) Unit := do
  let d ← Call.descriptor descriptor
  Traced.ofExcept (checkOutputs ["data", "environments", "features"] missing)
  leave (.ofDense (← Traced.ofExcept d.readValues))

/-- Leave the gradients of a descriptor. -/
def gradients (descriptor : Option Handle) (missing : List String) :
    Traced (Exchange (View Float)) Unit := do
  let d ← Call.descriptor descriptor
  Traced.ofExcept (checkOutputs ["data", "gradients", "features"] missing)
  leave (d.readGradients.elim .absent .ofDense)

/-- Leave the labels along an axis of a descriptor. -/
def labels (descriptor : Option Handle) (axis : Axis) (missing : List String) :
    Traced (Exchange (View Int)) Unit := do
  let d ← Call.descriptor descriptor
  Traced.ofExcept (checkOutputs ["data", "count", "size"] missing)
  leave ((d.labels? axis).elim .absent .ofLabels)

/-- Leave the names of the variables along an axis of a descriptor in a list of the caller, with
null pointers behind them. -/
def names (descriptor : Option Handle) (axis : Axis) :
    Traced (Exchange (Option (List (Option String)))) Unit := do
  let d ← Call.descriptor descriptor
  let place ← Traced.ofExcept (given "names" (← Traced.value).2)
  let names := (d.labels? axis).elim [] (·.names)
  if place.length < names.length then
    throw (.parameter (.namesTooSmall place.length names.length))
  leave (some (names.map some ++ List.replicate (place.length - names.length) none))

/-- Move variables from the features of a descriptor to its environments. -/
def densify (descriptor : Option Handle) (pointers : Option (List (Option (List UInt8))))
    (count : Nat) : Traced (Exchange Unit) Unit :=
  onDescriptor descriptor do
    Descriptor.densify (← Traced.ofExcept (readNames pointers count))

/-- Move variables from the environments of a descriptor to its features. -/
def densifyToFeatures (descriptor : Option Handle)
    (pointers : Option (List (Option (List UInt8)))) (count : Nat) : Traced (Exchange Unit) Unit :=
  onDescriptor descriptor do
    Descriptor.densifyToFeatures (← Traced.ofExcept (readNames pointers count))

/-- The rows that a caller wants, all of them if the pointer to them is null. -/
def selection (rows : Option (List Nat)) : Selection := rows.elim .all .rows

/-- Compute a descriptor for the first `count` systems of the caller, which stay in their place. -/
def compute {σ : Type} [AtomicSystem σ Float] (calculator descriptor : Option Handle)
    (workers : Workers) (count : Nat) (options : CalculationOptions) :
    Traced (Exchange (Option (Systems σ))) Unit := do
  let c ← Call.calculator calculator
  let d ← Call.descriptor descriptor
  let systems ←
    if count = 0 then do
      Traced.log .warn .calculator "0 systems given to rascal_calculator_compute"
      pure #[]
    else do
      let all ← Traced.ofExcept (given "systems" (← Traced.value).2)
      pure (all.extract 0 count)
  Traced.focus (fun _ => (systems, d))
    (fun (s, place) (systems, d) => ({ s with descriptors := s.descriptors.set descriptor d },
      place.map fun all => systems ++ all.extract systems.size all.size))
    (c.compute workers options)

/-- Leave the bytes of the text of the last error. -/
def lastError : Traced (Exchange (Option (List UInt8))) Unit := do
  leave (some (Utf8.encode (← session).lastError ++ [0]))

/-- Start or stop to hand records to the listener. -/
def listen (on : Bool) : Traced (Exchange Unit) Unit := change fun s => { s with listening := on }

/-- Start or stop to count the calls of measured parts. -/
def measure (on : Bool) : Traced (Exchange Unit) Unit := change fun s => { s with profiling := on }

/-- Forget the profile. -/
def clearProfile : Traced (Exchange Unit) Unit := change fun s => { s with profile := .empty }

/-- Leave the profile in a format of the given name. -/
def profile (format : Option (List UInt8)) : Traced (Exchange (Option Buffer)) Unit := do
  let format ← Traced.ofExcept (given "format" format)
  let _ ← Traced.ofExcept (given "buffer" (← Traced.value).2)
  let profile := (← session).profile
  let text ←
    match ← Traced.ofExcept (readText format) with
    | "json" => pure profile.json
    | "table" | "short_table" => pure profile.table
    | other => throw (.parameter (.profileFormat other))
  leaveText "buffer" text

end Call

end Atomistic.Foreign
