import LedgerDrill.Cluster.Accounts
import LedgerDrill.Cluster.Links
import LedgerDrill.Error
import LedgerDrill.Latency

/-!
A replicated bank. Every node keeps a full copy of the accounts. A node serves only while its copy is
fresh, and a change needs a majority of nodes that are up and linked to the node where it is made;
it reaches every fresh node among them in one step, and makes every other node stale. A stale node
copies a fresh one before it serves again.
-/

namespace LedgerDrill
namespace Cluster

/-- Times are in milliseconds. -/
structure Settings where
  nodes : Nat := 3
  minDelay : Nat := 1
  maxDelay : Nat := 3
  connectDelay : Nat := 2
  commitDelay : Nat := 2
  torn : Bool := false
deriving DecidableEq, Repr

def majority (nodes : Nat) : Nat := nodes / 2 + 1

def Settings.quorum (s : Settings) : Nat := majority s.nodes

def Settings.roundTrip (s : Settings) : Latency := ⟨s.minDelay, s.maxDelay⟩

structure TransactionId where
  node : Nat
  number : Nat
  epoch : Nat
deriving DecidableEq, Repr

def TransactionId.text (id : TransactionId) : String :=
  "MTM-" ++ id.node.repr ++ "-" ++ id.number.repr ++ "-" ++ id.epoch.repr

/-- The `epoch` counts how often the node was stopped; a session belongs to one epoch. -/
structure Replica where
  up : Bool := true
  stale : Bool := false
  epoch : Nat := 0
  accounts : Accounts := ∅
  prepared : List TransactionId := []
deriving DecidableEq

end Cluster

structure Cluster where
  settings : Cluster.Settings
  replicas : List Cluster.Replica
  links : Cluster.Links := {}
  nextNumber : Nat := 1
deriving DecidableEq

namespace Cluster

def new (settings : Settings) : Cluster :=
  { settings, replicas := List.replicate settings.nodes {} }

def size (c : Cluster) : Nat := c.replicas.length

def modify (c : Cluster) (node : Nat) (f : Replica → Replica) : Cluster :=
  { c with replicas := c.replicas.modify node f }

def holds (c : Cluster) (node : Nat) (p : Replica → Bool) : Bool := c.replicas[node]?.any p

def reachable (c : Cluster) (node : Nat) : List Nat :=
  (List.range c.size).filter fun peer => c.holds peer (·.up) && c.links.connected node peer

def hasQuorum (c : Cluster) (node : Nat) : Bool := majority c.size ≤ (c.reachable node).length

def abortError (id : TransactionId) (reason : String) : StoreError :=
  let shown := (id.node + 1).repr
  .query ("Transaction " ++ id.text ++ " (node " ++ shown ++ ", xid " ++ id.number.repr ++
    ") is aborted on node " ++ shown ++ ": " ++ reason)

def openSession (c : Cluster) (node : Nat) : Except StoreError Nat :=
  match c.replicas[node]? with
  | none => .error (.connectFailed node "no such node")
  | some r => if r.up then .ok r.epoch else .error (.connectFailed node "Connection refused")

def isOpen (c : Cluster) (node epoch : Nat) : Bool :=
  c.holds node fun r => r.up && r.epoch == epoch

def donor? (c : Cluster) (node : Nat) : Option Nat :=
  (c.reachable node).find? fun peer => peer != node && c.holds peer (!·.stale)

def accountsOf (c : Cluster) (node : Nat) : Accounts :=
  (c.replicas[node]?.map (·.accounts)).getD ∅

def refresh (c : Cluster) (node : Nat) : Except StoreError Cluster :=
  if !c.holds node (·.stale) then .ok c
  else
    let inRecovery (reason : String) : StoreError :=
      .query ("node " ++ (node + 1).repr ++ " is in recovery: " ++ reason)
    if !c.hasQuorum node then .error (inRecovery "no quorum to resynchronize")
    else match c.donor? node with
      | none => .error (inRecovery "no fresh donor reachable")
      | some donor =>
        .ok (c.modify node fun r => { r with accounts := c.accountsOf donor, stale := false })

def serve (c : Cluster) (node epoch : Nat) : Except StoreError Cluster :=
  if c.isOpen node epoch then c.refresh node else .error .connectionClosed

/-- Changes the accounts of every fresh node that `origin` reaches, and makes the others stale. -/
def replicate (c : Cluster) (origin : Nat) (f : Accounts → Accounts) : Cluster :=
  let reached := c.reachable origin
  { c with replicas := c.replicas.mapIdx fun node r =>
      if reached.contains node && !r.stale then { r with accounts := f r.accounts }
      else { r with stale := true } }

def takeNumber (c : Cluster) : Nat × Cluster :=
  (c.nextNumber, { c with nextNumber := c.nextNumber + 1 })

def rowExists (c : Cluster) (node epoch uid : Nat) : Except StoreError (Cluster × Bool) := do
  let c ← c.serve node epoch
  return (c, (c.accountsOf node).contains uid)

def total (c : Cluster) (node epoch : Nat) : Except StoreError (Cluster × Int) := do
  let c ← c.serve node epoch
  return (c, (c.accountsOf node).total)

def digest (c : Cluster) (node epoch : Nat) : Except StoreError (Cluster × String) := do
  let c ← c.serve node epoch
  return (c, (c.accountsOf node).digest)

def preparedOn (c : Cluster) (node epoch : Nat) : Except StoreError Nat :=
  if c.isOpen node epoch then .ok ((c.replicas[node]?.map (·.prepared.length)).getD 0)
  else .error .connectionClosed

def prepare (c : Cluster) (epoch : Nat) (id : TransactionId) : Except StoreError Cluster := do
  let c ← c.serve id.node epoch
  if c.hasQuorum id.node then
    return c.modify id.node fun r => { r with prepared := r.prepared.insert id }
  else throw (abortError id "cluster has no quorum")

def forget (c : Cluster) (id : TransactionId) : Cluster :=
  c.modify id.node fun r => { r with prepared := r.prepared.erase id }

/-- The second phase: applies the writes, or aborts if the majority was lost in between. A session
that is not open any more leaves the prepared transaction behind. -/
def commitPrepared (c : Cluster) (epoch : Nat) (id : TransactionId) (writes : List Write) :
    Cluster × Except StoreError Unit :=
  if !c.isOpen id.node epoch then (c, .error .connectionClosed)
  else
    let c := c.forget id
    if c.holds id.node (·.stale) || !c.hasQuorum id.node then
      (c, .error (abortError id "cluster lost quorum during commit"))
    else (c.replicate id.node (·.apply writes), .ok ())

def createAccounts (c : Cluster) (node epoch n : Nat) : Except StoreError Cluster := do
  let c ← c.serve node epoch
  if c.hasQuorum node then return c.replicate node fun _ => .seed n
  else throw (.query ("node " ++ (node + 1).repr ++ " is not online: cluster has no quorum"))

end Cluster

end LedgerDrill
