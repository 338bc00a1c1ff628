import LedgerDrill.Error
import LedgerDrill.Latency

namespace LedgerDrill

/-- The transaction of a session. After a failed statement only a rollback is accepted. -/
inductive TxStatus
  | idle
  | inTransaction
  | inError
deriving DecidableEq, Repr

inductive Statement
  | begin
  | add (uid : Nat) (delta : Int)
  | commit
  | rollback
  | total
  | create (n : Nat)
  | digest
  | prepared
deriving DecidableEq, Repr

inductive Reply
  | done
  | rows (count : Nat)
  | total (balance : Int)
  | digest (text : String)
  | prepared (count : Nat)
deriving DecidableEq, Repr

def Reply.count : Reply → Nat
  | rows count | prepared count => count
  | _ => 0

abbrev Answer := Except StoreError Reply

inductive Next (π : Type)
  | answered (answer : Answer)
  | waiting (latency : Latency) (point : π)

structure Turn (σ κ π : Type) where
  store : σ
  session : κ
  next : Next π

/-- A store with state `σ`, sessions `κ` and waiting points `π` of their statements. -/
class Store (σ : Type) (κ π : outParam Type) where
  size : σ → Nat
  /-- Begins to connect to a node, and tells how long that takes if it takes any time. -/
  dial : σ → Nat → σ × Option Latency
  accept : σ → Nat → σ × Except StoreError κ
  node : κ → Nat
  isClosed : κ → Bool
  status : κ → TxStatus
  start : Statement → σ → κ → Turn σ κ π
  resume : π → σ → κ → Turn σ κ π
  waits : π → Nat
  losesLoop : σ → Nat → Bool := fun _ _ => false
  losesWorker : σ → Bool := fun _ => false

end LedgerDrill
