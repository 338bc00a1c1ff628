import LedgerDrill.Outcome.Entry

namespace LedgerDrill.Outcome

abbrev Instant := Nat

/-- `since` is the start of the iteration in flight, and outlives the window. -/
structure Aggregate where
  longest : Duration := .zero
  outcomes : Counts := ∅
  violations : Nat := 0
  since : Option Instant := none
deriving DecidableEq

namespace Aggregate

instance : Inhabited Aggregate := ⟨{}⟩

def start (a : Aggregate) (now : Instant) : Aggregate := { a with since := some now }

def record (a : Aggregate) (label : String) (latency : Duration) (violation : Bool) : Aggregate :=
  { longest := a.longest.longer latency
    outcomes := a.outcomes.record label
    violations := if violation then a.violations + 1 else a.violations
    since := none }

def append (a : Aggregate) (label : String) (latency : Duration) : Aggregate :=
  a.record label latency false

def finish (a : Aggregate) (started now : Instant) (message : String) (violation : Bool) :
    Aggregate :=
  a.record (Label.ofText message) (.ofNanos (now - started)) violation

def recordViolation (a : Aggregate) : Aggregate := { a with violations := a.violations + 1 }

def peek (a : Aggregate) (node : Nat) (kind : LoopKind) (now : Instant) : Entry :=
  { node, kind
    running := a.since.map fun since => .ofNanos (now - since)
    longest := a.longest, violations := a.violations, outcomes := a.outcomes }

def clear (a : Aggregate) : Aggregate := { since := a.since }

end Aggregate

end LedgerDrill.Outcome
