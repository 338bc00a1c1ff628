import LedgerDrill.Outcome.Aggregate
import LedgerDrill.Outcome.Snapshot

namespace LedgerDrill.Outcome
open Std

structure Key where
  node : Nat
  kind : LoopKind
deriving DecidableEq, Repr

instance : Ord Key := ⟨compareLex (compareOn Key.node) (compareOn Key.kind)⟩

instance : TransOrd Key :=
  inferInstanceAs (TransCmp (compareLex (compareOn Key.node) (compareOn Key.kind)))

structure Registry where
  aggregates : SortedMap Key Aggregate := ∅
deriving DecidableEq

namespace Registry

instance : Inhabited Registry := ⟨{}⟩

def register (r : Registry) (key : Key) : Registry :=
  ⟨r.aggregates.alter key fun aggregate => aggregate.getD {}⟩

def size (r : Registry) : Nat := r.aggregates.size

def isEmpty (r : Registry) : Bool := r.size == 0

def contains (r : Registry) (key : Key) : Bool := r.aggregates.contains key

def update (r : Registry) (key : Key) (f : Aggregate → Aggregate) : Registry :=
  ⟨r.aggregates.modify key f⟩

def get? (r : Registry) (key : Key) : Option Aggregate := r.aggregates.find? key

def peek (r : Registry) (now : Instant) : Snapshot :=
  ⟨r.aggregates.entries.map fun (key, aggregate) => aggregate.peek key.node key.kind now⟩

def clear (r : Registry) : Registry := ⟨r.aggregates.mapWithKey fun _ aggregate => aggregate.clear⟩

def takeSnapshot (r : Registry) (now : Instant) : Snapshot × Registry := (r.peek now, r.clear)

end Registry

end LedgerDrill.Outcome
