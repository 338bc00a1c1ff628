import LedgerDrill.Cluster.Faults

namespace LedgerDrill.Cluster

inductive Call
  | openSession (node : Nat)
  | takeNumber
  | rowExists (node epoch uid : Nat)
  | total (node epoch : Nat)
  | digest (node epoch : Nat)
  | preparedOn (node epoch : Nat)
  | prepare (epoch : Nat) (id : TransactionId)
  | commitPrepared (epoch : Nat) (id : TransactionId) (writes : List Write)
  | abortPrepared (id : TransactionId)
  | createAccounts (node epoch n : Nat)
  | fault (fault : Fault)
deriving DecidableEq

inductive Value
  | done
  | number (n : Nat)
  | found (isFound : Bool)
  | total (balance : Int)
  | digest (text : String)
deriving DecidableEq

/-- A call that fails has no value. -/
def call (c : Cluster) : Call → Cluster × Option Value
  | .openSession node => (c, (c.openSession node).toOption.map .number)
  | .takeNumber => (c.takeNumber.2, some (.number c.takeNumber.1))
  | .rowExists node epoch uid =>
    match c.rowExists node epoch uid with
    | .ok (c, isFound) => (c, some (.found isFound))
    | .error _ => (c, none)
  | .total node epoch =>
    match c.total node epoch with
    | .ok (c, balance) => (c, some (.total balance))
    | .error _ => (c, none)
  | .digest node epoch =>
    match c.digest node epoch with
    | .ok (c, text) => (c, some (.digest text))
    | .error _ => (c, none)
  | .preparedOn node epoch => (c, (c.preparedOn node epoch).toOption.map .number)
  | .prepare epoch id =>
    match c.prepare epoch id with
    | .ok c => (c, some .done)
    | .error _ => (c, none)
  | .commitPrepared epoch id writes =>
    let (c, result) := c.commitPrepared epoch id writes
    (c, result.toOption.map fun _ => .done)
  | .abortPrepared id => (c.forget id, some .done)
  | .createAccounts node epoch n =>
    match c.createAccounts node epoch n with
    | .ok c => (c, some .done)
    | .error _ => (c, none)
  | .fault fault =>
    let (c, result) := inject fault c
    (c, result.toOption.map fun _ => .done)

inductive Change
  | create (n : Nat)
  | write (writes : List Write)
deriving DecidableEq

def Change.apply (accounts : Accounts) : Change → Accounts
  | .create n => .seed n
  | .write writes => accounts.apply writes

def tableOf (changes : List Change) : Accounts := changes.foldl Change.apply ∅

/-- The change that a call makes if it succeeds. -/
def Call.change? : Call → Option Change
  | .commitPrepared _ _ writes => some (.write writes)
  | .createAccounts _ _ n => some (.create n)
  | _ => none

/-- A cluster with the changes of the calls that succeeded on it, oldest first. -/
structure Ledger where
  cluster : Cluster
  changes : List Change := []
deriving DecidableEq

namespace Ledger

def table (l : Ledger) : Accounts := tableOf l.changes

def changesOf (call : Call) (value : Option Value) : List Change :=
  if value.isSome then call.change?.toList else []

def call (l : Ledger) (call : Call) : Ledger :=
  let (cluster, value) := l.cluster.call call
  { cluster, changes := l.changes ++ changesOf call value }

def after (l : Ledger) (calls : List Call) : Ledger := calls.foldl Ledger.call l

def run (settings : Settings) (calls : List Call) : Ledger :=
  Ledger.after { cluster := new settings } calls

end Ledger

end LedgerDrill.Cluster
