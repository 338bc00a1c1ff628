import LedgerDrill.Error

namespace LedgerDrill

inductive Fault
  | isolate (node : Nat)
  | heal (node : Nat)
  | cut (a b : Nat)
  | restore (a b : Nat)
  | crash (node : Nat)
  | shutdown (node : Nat)
  | start (node : Nat)
deriving DecidableEq, Repr

class FaultTarget (τ : Type) where
  inject : Fault → τ → τ × Except RunError Unit

inductive Scenario
  | baseline
  | partition (node : Nat)
  | edge (a b : Nat)
  | restart (node : Nat)
  | crash (node : Nat)
deriving DecidableEq, Repr

structure Injector (τ : Type) where
  name : String
  unreachable : List Nat := []
  start : τ → τ × Except RunError Unit
  stop : τ → τ × Except RunError Unit

namespace Scenario

def nodeName (node : Nat) : String := "node" ++ (node + 1).repr

def name : Scenario → String
  | baseline => "no failure"
  | partition node => "partition of " ++ nodeName node
  | edge a b => "edge partition " ++ nodeName a ++ " <-> " ++ nodeName b
  | restart node => "restart of " ++ nodeName node
  | crash node => "crash of " ++ nodeName node

def unreachable : Scenario → List Nat
  | baseline | edge .. => []
  | partition node | restart node | crash node => [node]

def startFault? : Scenario → Option Fault
  | baseline => none
  | partition node => some (.isolate node)
  | edge a b => some (.cut a b)
  | restart node => some (.shutdown node)
  | crash node => some (.crash node)

def stopFault? : Scenario → Option Fault
  | baseline => none
  | partition node => some (.heal node)
  | edge a b => some (.restore a b)
  | restart node | crash node => some (.start node)

def inject {τ : Type} [FaultTarget τ] (fault : Option Fault) (target : τ) :
    τ × Except RunError Unit :=
  match fault with
  | some fault => FaultTarget.inject fault target
  | none => (target, .ok ())

def injector {τ : Type} [FaultTarget τ] (s : Scenario) : Injector τ where
  name := s.name
  unreachable := s.unreachable
  start := inject s.startFault?
  stop := inject s.stopFault?

end Scenario

structure FaultLog where
  broken : Bool := false
  calls : List Fault := []
deriving DecidableEq

def Fault.text : Fault → String
  | .isolate node => "isolate " ++ node.repr
  | .heal node => "heal " ++ node.repr
  | .cut a b => "cut " ++ a.repr ++ " " ++ b.repr
  | .restore a b => "restore " ++ a.repr ++ " " ++ b.repr
  | .crash node => "crash " ++ node.repr
  | .shutdown node => "shutdown " ++ node.repr
  | .start node => "start " ++ node.repr

instance : FaultTarget FaultLog where
  inject fault log :=
    ({ log with calls := fault :: log.calls },
      if log.broken then .error (.injection fault.text "refused") else .ok ())

end LedgerDrill
