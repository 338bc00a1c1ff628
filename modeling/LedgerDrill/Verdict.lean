import LedgerDrill.Error
import LedgerDrill.Outcome.Snapshot

namespace LedgerDrill
open Outcome (Snapshot)

structure Windows where
  during : Snapshot
  after : Snapshot
deriving DecidableEq

inductive Expectation
  | available
  | unreachable (nodes : List Nat)
  | eitherSide (a b : Nat)
deriving DecidableEq, Repr

namespace Verdict

def transferCommits (s : Snapshot) (node : Nat) : Except Breach Bool :=
  match s.transfer? node with
  | some entry => .ok entry.hasCommits
  | none => .error (.missingNode node)

def commits (s : Snapshot) (nodes : List Nat) : Except Breach Unit :=
  nodes.forM fun node => do
    if !(← transferCommits s node) then throw (.noCommits node)

def noCommits (s : Snapshot) (nodes : List Nat) : Except Breach Unit :=
  nodes.forM fun node => do
    if ← transferCommits s node then throw (.unexpectedCommits node)

/-- Looks for a node that committed, in order; nodes behind it need not be in the snapshot. -/
def someCommits (s : Snapshot) : List Nat → Except Breach Bool
  | [] => .ok false
  | node :: rest => do
    if ← transferCommits s node then return true else someCommits s rest

/-- At least one listed node committed a transfer. If none did, the first one is blamed. -/
def anyCommits (s : Snapshot) (nodes : List Nat) : Except Breach Unit := do
  if !(← someCommits s nodes) then throw (.noCommits (nodes.head?.getD 0))

def isolation (s : Snapshot) (nodes : List Nat) : Except Breach Unit :=
  nodes.forM fun node => do
    if (s.sumTotal? node).isNone then throw (.missingNode node)
    if 0 < s.violations node then throw (.isolation node (s.violations node))

end Verdict

namespace Expectation
open Verdict

def verifyDuring (e : Expectation) (s : Snapshot) (nodeCount : Nat) : Except Breach Unit := do
  let all := List.range nodeCount
  match e with
  | available => commits s all
  | unreachable down =>
    commits s (all.filter (!down.contains ·))
    noCommits s down
  | eitherSide a b =>
    commits s (all.filter fun node => node != a && node != b)
    anyCommits s [a, b]

def verify (e : Expectation) (w : Windows) (nodeCount : Nat) : Except Breach Unit := do
  let all := List.range nodeCount
  e.verifyDuring w.during nodeCount
  isolation w.during all
  commits w.after all
  isolation w.after all

end Expectation

end LedgerDrill
