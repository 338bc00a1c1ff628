import LedgerDrill.Cluster.Basic
import LedgerDrill.Store

namespace LedgerDrill.Cluster

structure Session where
  node : Nat
  epoch : Nat
  status : TxStatus := .idle
  closed : Bool := false
  writes : List Write := []
deriving DecidableEq, Repr

/-- Where a statement waits. A commit carries the reply that it gives at its end. -/
inductive Waiting
  | reaching (statement : Statement)
  | preparing (id : TransactionId) (writes : List Write) (reply : Reply)
  | applying (id : TransactionId) (writes : List Write) (reply : Reply)
  | tearing (id : TransactionId) (writes : List Write) (reply : Reply)
deriving DecidableEq, Repr

abbrev SessionTurn := Turn Cluster Session Waiting

namespace Session

def fail (s : Session) : StoreError → Session
  | .connectionClosed | .connectFailed .. => { s with closed := true }
  | _ => if s.status = .inTransaction then { s with status := .inError } else s

def refusal? (s : Session) : Option StoreError :=
  if s.closed then some .connectionClosed
  else if s.status = .inError then some .inFailedTransaction
  else none

def endCommit (s : Session) : Session := if s.closed then s else { s with status := .idle }

end Session

def answered (c : Cluster) (s : Session) (answer : Answer) : SessionTurn := ⟨c, s, .answered answer⟩

def failed (c : Cluster) (s : Session) (e : StoreError) : SessionTurn :=
  answered c (s.fail e) (.error e)

def waitingAt (c : Cluster) (s : Session) (latency : Latency) (w : Waiting) : SessionTurn :=
  ⟨c, s, .waiting latency w⟩

def beginCommit (c : Cluster) (s : Session) (writes : List Write) (reply : Reply) : SessionTurn :=
  let (number, c) := c.takeNumber
  waitingAt c s c.settings.roundTrip (.preparing ⟨s.node, number, s.epoch⟩ writes reply)

def finishCommit (c : Cluster) (s : Session) (id : TransactionId) (reply : Reply) :
    Except StoreError Unit → SessionTurn
  | .ok () => answered c s.endCommit (.ok reply)
  | .error e =>
    let c := match e with
      | .query _ => c.forget id
      | _ => c
    answered c (s.fail e).endCommit (.error e)

/-- Applies the next write of a torn commit. Without writes nothing is applied, and the transaction
stays prepared. -/
def applyTorn (c : Cluster) (s : Session) (id : TransactionId) (writes : List Write)
    (reply : Reply) : SessionTurn :=
  match writes with
  | [] => finishCommit c s id reply (.ok ())
  | write :: rest =>
    let (c, result) := c.commitPrepared s.epoch id [write]
    match result, rest with
    | .ok (), _ :: _ => waitingAt c s c.settings.roundTrip (.tearing id rest reply)
    | result, _ => finishCommit c s id reply result

def applyWrites (c : Cluster) (s : Session) (id : TransactionId) (writes : List Write)
    (reply : Reply) : SessionTurn :=
  if c.settings.torn then applyTorn c s id writes reply
  else
    let (c, result) := c.commitPrepared s.epoch id writes
    finishCommit c s id reply result

def execute (c : Cluster) (s : Session) : Statement → SessionTurn
  | .begin =>
    match c.rowExists s.node s.epoch 0 with
    | .error e => failed c s e
    | .ok (c, _) => answered c { s with writes := [], status := .inTransaction } (.ok .done)
  | .add uid delta =>
    match c.rowExists s.node s.epoch uid with
    | .error e => failed c s e
    | .ok (c, false) => answered c s (.ok (.rows 0))
    | .ok (c, true) =>
      if s.status = .inTransaction then
        answered c { s with writes := s.writes ++ [⟨uid, delta⟩] } (.ok (.rows 1))
      else beginCommit c s [⟨uid, delta⟩] (.rows 1)
  | .commit => answered c s (.ok .done)
  | .rollback => answered c { s with writes := [], status := .idle } (.ok .done)
  | .total =>
    match c.total s.node s.epoch with
    | .error e => failed c s e
    | .ok (c, balance) => answered c s (.ok (.total balance))
  | .create n =>
    match c.createAccounts s.node s.epoch n with
    | .error e => failed c s e
    | .ok c => answered c s (.ok .done)
  | .digest =>
    match c.digest s.node s.epoch with
    | .error e => failed c s e
    | .ok (c, text) => answered c s (.ok (.digest text))
  | .prepared =>
    match c.preparedOn s.node s.epoch with
    | .error e => failed c s e
    | .ok count => answered c s (.ok (.prepared count))

/-- Starts a statement. A commit takes the writes out of the session; that of a failed transaction
rolls it back. -/
def startStatement (statement : Statement) (c : Cluster) (s : Session) : SessionTurn :=
  match statement with
  | .commit =>
    if s.closed then answered c s (.error .connectionClosed)
    else match s.status with
      | .idle => answered c s (.error .noTransaction)
      | .inError => answered c { s with status := .idle, writes := [] } (.error .inFailedTransaction)
      | .inTransaction => beginCommit c { s with writes := [] } s.writes .done
  | .rollback =>
    if s.closed then answered c s (.error .connectionClosed)
    else waitingAt c s c.settings.roundTrip (.reaching .rollback)
  | statement =>
    match s.refusal? with
    | some e => answered c s (.error e)
    | none => waitingAt c s c.settings.roundTrip (.reaching statement)

def resumeStatement (w : Waiting) (c : Cluster) (s : Session) : SessionTurn :=
  match w with
  | .reaching statement => execute c s statement
  | .preparing id writes reply =>
    match c.prepare s.epoch id with
    | .error e => answered c (s.fail e).endCommit (.error e)
    | .ok c =>
      if 0 < c.settings.commitDelay then
        waitingAt c s (.fixed c.settings.commitDelay) (.applying id writes reply)
      else applyWrites c s id writes reply
  | .applying id writes reply => applyWrites c s id writes reply
  | .tearing id writes reply => applyTorn c s id writes reply

instance : Store Cluster Session Waiting where
  size := size
  dial c _ :=
    (c, if 0 < c.settings.connectDelay then some (.fixed c.settings.connectDelay) else none)
  accept c node := (c, (c.openSession node).map fun epoch => { node, epoch })
  node := Session.node
  isClosed := Session.closed
  status := Session.status
  start := startStatement
  resume := resumeStatement
  waits
    | .reaching _ => 5
    | .preparing _ writes _ => writes.length + 3
    | .applying _ writes _ => writes.length + 2
    | .tearing _ writes _ => writes.length + 1

end LedgerDrill.Cluster
