import Atomistic.Trace

/-!
# Profiles

A profile says how often each measured part of the library was called, and how often from inside of
which other one. It is gathered from traces; a call counts whether or not it succeeded.
-/

namespace Atomistic

/-- One more occurrence of a key, in a list of keys with their number of occurrences. -/
def countOne {κ : Type} [DecidableEq κ] (key : κ) : List (κ × Nat) → List (κ × Nat)
  | [] => [(key, 1)]
  | (k, n) :: rest => if k = key then (k, n + 1) :: rest else (k, n) :: countOne key rest

/-- Numbers of calls. -/
structure Profile where
  /-- How often each part was called. -/
  called : List (Span × Nat)
  /-- How often the first part of a pair called the second one. -/
  calls : List ((Span × Span) × Nat)
  deriving DecidableEq, Repr

namespace Profile

/-- The profile of no call. -/
def empty : Profile := ⟨[], []⟩

/-- One more call of a part, inside of another one or of none. -/
def call (p : Profile) (caller : Option Span) (s : Span) : Profile where
  called := countOne s p.called
  calls :=
    match caller with
    | some c => countOne (c, s) p.calls
    | none => p.calls

/-- Follow an entry of a trace, given the parts that are being run, innermost first. -/
def follow : Profile × List Span → Event → Profile × List Span
  | (p, running), .enter s => (p.call running.head? s, s :: running)
  | (p, running), .leave _ => (p, running.tail)
  | (p, running), .records _ => (p, running)

/-- The profile with the calls of a trace added. -/
def observe (p : Profile) (t : Trace) : Profile := (t.foldl follow (p, [])).1

/-- The number of a part in the profile. -/
def numberOf (p : Profile) (s : Span) : Nat := p.called.findIdx fun (t, _) => t == s

/-- A profile in JSON: the parts with their number and their calls, then calls of parts by parts. -/
def json (p : Profile) : String :=
  let part : Span × Nat → String := fun (s, n) =>
    "\"" ++ s.path ++ s!"\":\x7b\"id\":{p.numberOf s},\"called\":{n}\x7d"
  let edge : (Span × Span) × Nat → String := fun ((s, t), n) =>
    s!"\x7b\"caller\":{p.numberOf s},\"callee\":{p.numberOf t},\"count\":{n}\x7d"
  "\x7b\"timings\":\x7b" ++ ",".intercalate (p.called.map part) ++ "\x7d,\"calls\":["
    ++ ",".intercalate (p.calls.map edge) ++ "]\x7d"

/-- A profile as lines of text, one for each part. -/
def table (p : Profile) : String :=
  "id | span name | call count\n" ++ String.join (p.called.map fun (s, n) =>
    s!"{p.numberOf s} | {s.path} | {n}\n")

end Profile

end Atomistic
