import LedgerDrill.Outcome.Entry
import LedgerDrill.Text.Quoted

namespace LedgerDrill.Outcome

structure Snapshot where
  entries : List Entry := []
deriving DecidableEq

namespace Snapshot

def get? (s : Snapshot) (node : Nat) (kind : LoopKind) : Option Entry :=
  s.entries.find? fun e => e.node == node && e.kind == kind

def transfer? (s : Snapshot) (node : Nat) : Option Entry := s.get? node .transfer

def sumTotal? (s : Snapshot) (node : Nat) : Option Entry := s.get? node .sumTotal

def nodes (s : Snapshot) : List Nat :=
  (SortedMap.ofList (s.entries.map fun e => (e.node, ()))).keys

def violations (s : Snapshot) (node : Nat) : Nat :=
  ((s.entries.filter fun e => e.node == node).map (·.violations)).foldl (· + ·) 0

def totalOutcomes (s : Snapshot) : Nat := (s.entries.map (·.total)).foldl (· + ·) 0

end Snapshot

def Counts.text (counts : Counts) : String :=
  "\x7b" ++ ", ".intercalate (counts.entries.map fun (label, count) =>
    Text.Quoted.quote label ++ ": " ++ count.repr) ++ "\x7d"

def Entry.row (e : Entry) : String :=
  "Node " ++ (e.node + 1).repr ++ ": " ++ e.kind.name ++ "\t" ++
    (e.running.map Duration.twoPlaces).getD "-" ++ "\t\t" ++ e.longest.twoPlaces ++ "\t\t" ++
    e.violations.repr ++ "\t" ++ e.outcomes.text ++ "\n"

namespace Snapshot

def header : String := "\t\trunning_latency\tmax_latency\tisolation\tfinish\n"

def table (s : Snapshot) : String := header ++ String.join (s.entries.map Entry.row)

end Snapshot

end LedgerDrill.Outcome
