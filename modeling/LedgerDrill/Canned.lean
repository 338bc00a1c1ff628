import LedgerDrill.Store

namespace LedgerDrill

namespace Canned

structure Replies where
  connectError : Option StoreError := none
  beginError : Option StoreError := none
  addError : Option StoreError := none
  commitError : Option StoreError := none
  totalError : Option StoreError := none
  createError : Option StoreError := none
  digestError : Option StoreError := none
  preparedError : Option StoreError := none
  total : Int := 0
  digest : String := ""
  prepared : Nat := 0
  losesLoop : Bool := false
deriving DecidableEq

structure Session where
  node : Nat
  replies : Replies
deriving DecidableEq

end Canned

structure Canned where
  nodes : Nat
  replies : List Canned.Replies := []
  losesWorker : Bool := false
deriving DecidableEq

namespace Canned

def repliesOf (c : Canned) (node : Nat) : Replies := c.replies[node]?.getD {}

def replyOr (error : Option StoreError) (reply : Reply) : Answer :=
  match error with
  | some e => .error e
  | none => .ok reply

def answer (r : Replies) : Statement → Answer
  | .begin => replyOr r.beginError .done
  | .add .. => replyOr r.addError (.rows 1)
  | .commit => replyOr r.commitError .done
  | .rollback => .ok .done
  | .total => replyOr r.totalError (.total r.total)
  | .create _ => replyOr r.createError .done
  | .digest => replyOr r.digestError (.digest r.digest)
  | .prepared => replyOr r.preparedError (.prepared r.prepared)

def accept (c : Canned) (node : Nat) : Except StoreError Session :=
  let replies := c.repliesOf node
  match replies.connectError with
  | some e => .error e
  | none => .ok ⟨node, replies⟩

instance : Store Canned Session Statement where
  size := nodes
  dial c _ := (c, none)
  accept c node := (c, c.accept node)
  node := Session.node
  isClosed _ := false
  status _ := .idle
  start statement c session := ⟨c, session, .waiting (.fixed 1) statement⟩
  resume statement c session := ⟨c, session, .answered (answer session.replies statement)⟩
  waits _ := 1
  losesLoop c node := (c.repliesOf node).losesLoop
  losesWorker := losesWorker

end Canned

end LedgerDrill
