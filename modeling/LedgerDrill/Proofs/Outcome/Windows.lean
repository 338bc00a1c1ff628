import LedgerDrill.Outcome.Registry
import LedgerDrill.Proofs.Outcome.Labels
import LedgerDrill.Proofs.SortedMap

namespace LedgerDrill.Outcome
open Std

instance : LawfulEqOrd LoopKind where
  eq_of_compare same := LoopKind.rank_injective (Nat.compare_eq_eq.mp same)

instance : LawfulEqOrd Key where
  eq_of_compare {a b} same := by
    obtain ⟨node, kind⟩ := a
    obtain ⟨node', kind'⟩ := b
    obtain ⟨sameNode, sameKind⟩ := Ordering.then_eq_eq.mp same
    obtain rfl := Nat.compare_eq_eq.mp sameNode
    obtain rfl := LawfulEqOrd.eq_of_compare (a := kind) sameKind
    rfl

/-! ## Sums over a registry -/

theorem sum_filter_map {α β : Type} (f : β → Nat) (g : α → β) (p : β → Bool) (l : List α) :
    (((l.map g).filter p).map f).sum = (l.map fun a => if p (g a) then f (g a) else 0).sum := by
  induction l with
  | nil => rfl
  | cons a rest ih =>
      rw [List.map_cons, List.filter_cons, List.map_cons, List.sum_cons, ← ih]
      by_cases chosen : p (g a) = true
      · rw [if_pos chosen, if_pos chosen, List.map_cons, List.sum_cons]
      · rw [if_neg chosen, if_neg chosen, Nat.zero_add]

variable {r : Registry} {key other : Key}

namespace Registry

def sum (r : Registry) (chosen : Key → Bool) (value : Aggregate → Nat) : Nat :=
  (r.aggregates.entries.map fun entry => if chosen entry.1 then value entry.2 else 0).sum

variable {chosen : Key → Bool} {value : Aggregate → Nat}

theorem contains_update (f : Aggregate → Aggregate) :
    (r.update key f).contains other = r.contains other :=
  SortedMap.contains_modify f

theorem contains_clear : r.clear.contains other = r.contains other :=
  SortedMap.contains_mapWithKey _

theorem contains_register : (r.register key).contains other = (key == other || r.contains other) := by
  unfold contains register
  rw [SortedMap.contains_alter, Bool.eq_iff_iff]
  simp

theorem sum_register (empty : value {} = 0) : (r.register key).sum chosen value = r.sum chosen value := by
  have new : (if chosen key then value {} else 0) = 0 := by simp [empty]
  exact SortedMap.sum_alterEntries (g := fun entry => if chosen entry.1 then value entry.2 else 0)
    (f := fun aggregate => aggregate.getD {}) new (fun _ => rfl) r.aggregates.entries

theorem sum_update {f : Aggregate → Aggregate} {more : Nat} (registered : r.contains key = true)
    (adds : ∀ aggregate, value (f aggregate) = value aggregate + more) :
    (r.update key f).sum chosen value = r.sum chosen value + if chosen key then more else 0 := by
  apply SortedMap.sum_modify registered
  intro aggregate
  simp only [adds]
  split <;> rfl

theorem sum_clear (zero : ∀ aggregate : Aggregate, value aggregate.clear = 0) :
    r.clear.sum chosen value = 0 := by
  rw [sum, List.sum_eq_zero_iff_forall_eq_nat, List.forall_mem_map]
  intro entry member
  obtain ⟨old, _, rfl⟩ := List.mem_map.mp member
  simp [zero]

end Registry

/-! ## Meters -/

def Snapshot.commits (s : Snapshot) (kind : LoopKind) : Nat :=
  ((s.entries.filter (·.kind == kind)).map (·.commits)).sum

/-- A number that snapshots show, and that aggregates count up from zero in every window. -/
structure Meter where
  shown : Snapshot → Nat
  chosen : Key → Bool
  value : Aggregate → Nat
  gain : (label : String) → (violation : Bool) → Nat
  shown_peek : ∀ (r : Registry) (now : Instant), shown (r.peek now) = r.sum chosen value
  empty : value {} = 0
  start : ∀ (a : Aggregate) (now : Instant), value (a.start now) = value a
  record : ∀ (a : Aggregate) (label : String) (latency : Duration) (violation : Bool),
    value (a.record label latency violation) = value a + gain label violation
  clear : ∀ a : Aggregate, value a.clear = 0

theorem find?_record (counts : Counts) (label other : String) :
    ((counts.record label).find? other).getD 0 =
      (counts.find? other).getD 0 + if label = other then 1 else 0 := by
  by_cases same : label = other
  · rw [Counts.record, same, SortedMap.find?_alter_self]
    simp
  · rw [Counts.record, SortedMap.find?_alter_ne _ same]
    simp [same]

def Meter.commits (kind : LoopKind) : Meter where
  shown s := s.commits kind
  chosen key := key.kind == kind
  value a := (a.outcomes.find? commit).getD 0
  gain label _ := if label = commit then 1 else 0
  shown_peek _ _ := sum_filter_map _ _ _ _
  empty := rfl
  start _ _ := rfl
  record a label _ _ := find?_record a.outcomes label commit
  clear _ := rfl

def Meter.violations (node : Nat) : Meter where
  shown s := s.violations node
  chosen key := key.node == node
  value a := a.violations
  gain _ violation := if violation then 1 else 0
  shown_peek _ _ := List.sum_eq_foldl.symm.trans (sum_filter_map _ _ _ _)
  empty := rfl
  start _ _ := rfl
  record a _ _ violation := by cases violation <;> rfl
  clear _ := rfl

/-! ## All windows -/

/-- What is shown by the snapshots taken so far and by the window that is open. -/
def overall (shown : Snapshot → Nat) (taken : List Snapshot) (r : Registry) : Nat :=
  (taken.map shown).sum + shown (r.peek 0)

namespace Meter

variable (m : Meter) (taken : List Snapshot)

theorem overall_eq (r : Registry) :
    overall m.shown taken r = (taken.map m.shown).sum + r.sum m.chosen m.value := by
  rw [overall, m.shown_peek]

theorem overall_takeSnapshot (r : Registry) (now : Instant) :
    overall m.shown (taken ++ [(r.takeSnapshot now).1]) (r.takeSnapshot now).2 =
      overall m.shown taken r := by
  simp only [Registry.takeSnapshot, overall_eq, List.map_append, List.map_cons, List.map_nil, List.sum_append,
    List.sum_cons, List.sum_nil, m.shown_peek, Registry.sum_clear m.clear]
  omega

theorem overall_register (r : Registry) (key : Key) :
    overall m.shown taken (r.register key) = overall m.shown taken r := by
  rw [overall_eq, overall_eq, Registry.sum_register m.empty]

theorem overall_start (registered : r.contains key = true) (now : Instant) :
    overall m.shown taken (r.update key (·.start now)) = overall m.shown taken r := by
  have adds : ∀ a : Aggregate, m.value (a.start now) = m.value a + 0 := fun a => m.start a now
  rw [overall_eq, overall_eq, Registry.sum_update registered adds, ite_self, Nat.add_zero]

theorem overall_finish (registered : r.contains key = true) (started now : Instant)
    (message : String) (violation : Bool) :
    overall m.shown taken (r.update key (·.finish started now message violation)) =
      overall m.shown taken r +
        if m.chosen key then m.gain (Label.ofText message) violation else 0 := by
  have adds : ∀ a : Aggregate, m.value (a.finish started now message violation) =
      m.value a + m.gain (Label.ofText message) violation := fun a => m.record a _ _ violation
  rw [overall_eq, overall_eq, Registry.sum_update registered adds, Nat.add_assoc]

end Meter

end LedgerDrill.Outcome
