import LedgerDrill.Cluster.Basic
import LedgerDrill.Scenario

namespace LedgerDrill.Cluster

/-- Stops a node. After a crash its copy is lost; a shutdown gives up what was prepared. -/
def stopNode (c : Cluster) (node : Nat) (crash : Bool) : Cluster :=
  c.modify node fun r =>
    { r with
      up := false
      epoch := r.epoch + 1
      stale := crash || r.stale
      prepared := if crash then r.prepared else [] }

def startNode (c : Cluster) (node : Nat) : Cluster :=
  c.modify node fun r => { r with up := true, prepared := [] }

def applyFault (c : Cluster) : Fault → Cluster
  | .isolate node => { c with links := c.links.isolate c.size node }
  | .heal node => { c with links := c.links.heal c.size node }
  | .cut a b => { c with links := c.links.cut a b }
  | .restore a b => { c with links := c.links.restore a b }
  | .crash node => c.stopNode node true
  | .shutdown node => c.stopNode node false
  | .start node => c.startNode node

def faultName : Fault → String
  | .isolate _ => "isolate"
  | .heal _ => "heal"
  | .cut .. => "cut_link"
  | .restore .. => "restore_link"
  | .crash _ => "crash"
  | .shutdown _ => "shutdown"
  | .start _ => "start"

def faultNodes : Fault → List Nat
  | .isolate node | .heal node | .crash node | .shutdown node | .start node => [node]
  | .cut a b | .restore a b => [a, b]

def inject (fault : Fault) (c : Cluster) : Cluster × Except RunError Unit :=
  match (faultNodes fault).find? (c.size ≤ ·) with
  | some node =>
    (c, .error (.injection (faultName fault) ("no node with index " ++ node.repr)))
  | none => (c.applyFault fault, .ok ())

instance : FaultTarget Cluster := ⟨inject⟩

end LedgerDrill.Cluster
