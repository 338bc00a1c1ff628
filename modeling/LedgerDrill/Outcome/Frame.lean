import LedgerDrill.Duration.Text
import LedgerDrill.Json.Skip
import LedgerDrill.Json.Strings
import LedgerDrill.Outcome.Snapshot

namespace LedgerDrill.Outcome
open Json (writeList writeMember writeObject)

def Counts.write (counts : Counts) : List Char :=
  writeObject (counts.entries.map fun (label, count) => writeMember label (Text.decimal count))

def Entry.write (e : Entry) : List Char :=
  writeObject
    [writeMember "node" (Text.decimal e.node),
     writeMember "kind" e.kind.write,
     writeMember "running_latency" (e.running.elim "null".toList Duration.write),
     writeMember "max_latency" e.longest.write,
     writeMember "violations" (Text.decimal e.violations),
     writeMember "outcomes" e.outcomes.write]

def Snapshot.frame (s : Snapshot) : String :=
  String.ofList (writeList (s.entries.map Entry.write))

def Counts.read : Json.Reader Counts :=
  Json.readMap (Json.readNatural wordBound "u64") (fun counts label count => counts.insert label count) ∅

namespace Entry

structure Partial where
  node : Option Nat := none
  kind : Option LoopKind := none
  running : Option (Option Duration) := none
  longest : Option Duration := none
  violations : Option Nat := none
  outcomes : Option Counts := none

def readNode : Json.Reader Nat := Json.readNatural wordBound "usize"

def readRunning : Json.Reader (Option Duration) := Json.readOptional Duration.read

def readViolations : Json.Reader Nat := Json.readNatural wordBound "u64"

def readOnce {α : Type} (name : String) (given : Option α) (read : Json.Reader α)
    (text : List Char) : Except Json.Error (Option α × List Char) := do
  if given.isSome then throw (.duplicateField name)
  let (value, rest) ← read (← Json.readColon text)
  return (some value, rest)

def readMember : Json.Member Partial := fun seen name text => do
  match name with
  | "node" =>
    let (node, rest) ← readOnce name seen.node readNode text
    return ({ seen with node }, rest)
  | "kind" =>
    let (kind, rest) ← readOnce name seen.kind LoopKind.read text
    return ({ seen with kind }, rest)
  | "running_latency" =>
    let (running, rest) ← readOnce name seen.running readRunning text
    return ({ seen with running }, rest)
  | "max_latency" =>
    let (longest, rest) ← readOnce name seen.longest Duration.read text
    return ({ seen with longest }, rest)
  | "violations" =>
    let (violations, rest) ← readOnce name seen.violations readViolations text
    return ({ seen with violations }, rest)
  | "outcomes" =>
    let (outcomes, rest) ← readOnce name seen.outcomes Counts.read text
    return ({ seen with outcomes }, rest)
  | _ => return (seen, ← Json.skipMember text)

def Partial.complete (p : Partial) : Except Json.Error Entry := do
  let need {α : Type} (name : String) : Option α → Except Json.Error α
    | some value => .ok value
    | none => .error (.missingField name)
  return {
    node := ← need "node" p.node
    kind := ← need "kind" p.kind
    running := ← need "running_latency" p.running
    longest := ← need "max_latency" p.longest
    violations := ← need "violations" p.violations
    outcomes := ← need "outcomes" p.outcomes }

def readPlace {α : Type} (place : Nat) (read : Json.Reader α) : Json.Reader α := fun text => do
  match ← Json.nextElement (place == 0) text with
  | some text => read text
  | none => .error (.invalidLength place "struct AggregateSnapshot with 6 elements")

def readPlaces : Json.Reader Entry := fun text => do
  let (node, text) ← readPlace 0 readNode text
  let (kind, text) ← readPlace 1 LoopKind.read text
  let (running, text) ← readPlace 2 readRunning text
  let (longest, text) ← readPlace 3 Duration.read text
  let (violations, text) ← readPlace 4 readViolations text
  let (outcomes, text) ← readPlace 5 Counts.read text
  return ({ node, kind, running, longest, violations, outcomes }, text)

def read : Json.Reader Entry :=
  Json.readRecord "struct AggregateSnapshot" readPlaces fun text => do
    let (seen, rest) ← Json.readObject readMember {} text
    return (← seen.complete, rest)

end Entry

def Snapshot.ofFrame (frame : String) : Except Json.Error Snapshot :=
  (Json.readDocument (Json.readList Entry.read) frame).map Snapshot.mk

end LedgerDrill.Outcome
