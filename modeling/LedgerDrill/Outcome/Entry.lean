import LedgerDrill.Duration
import LedgerDrill.LoopKind
import LedgerDrill.Outcome.Label
import LedgerDrill.SortedMap

namespace LedgerDrill.Outcome

abbrev Counts := SortedMap String Nat

def Counts.total (counts : Counts) : Nat := counts.values.foldl (· + ·) 0

def Counts.record (counts : Counts) (label : String) : Counts :=
  counts.alter label fun count => count.getD 0 + 1

structure Entry where
  node : Nat
  kind : LoopKind
  running : Option Duration := none
  longest : Duration := .zero
  violations : Nat := 0
  outcomes : Counts := ∅
deriving DecidableEq

namespace Entry

def commits (e : Entry) : Nat := (e.outcomes.find? commit).getD 0

def hasCommits (e : Entry) : Bool := e.outcomes.contains commit

def total (e : Entry) : Nat := e.outcomes.total

def isEmpty (e : Entry) : Bool := e.outcomes.isEmpty && e.violations == 0 && e.longest.isZero

end Entry

end LedgerDrill.Outcome
