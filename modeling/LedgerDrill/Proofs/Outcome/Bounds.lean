import LedgerDrill.Proofs.Outcome.Frames
import LedgerDrill.Proofs.Outcome.Operations

namespace LedgerDrill

theorem SortedMap.forall_alterEntries_of {κ ν : Type} [Ord κ] {p q : κ × ν → Prop} {key : κ}
    {f : Option ν → ν} {entries : List (κ × ν)} (all : ∀ entry ∈ entries, q entry)
    (kept : ∀ entry, q entry → p entry) (new : p (key, f none))
    (changed : ∀ k v, q (k, v) → p (k, f (some v))) : ∀ entry ∈ alterEntries key f entries, p entry := by
  induction entries with
  | nil =>
      intro entry member
      rw [List.mem_singleton.mp member]
      exact new
  | cons head rest ih =>
      obtain ⟨first, others⟩ := List.forall_mem_cons.mp all
      have rest' : ∀ entry ∈ rest, p entry := fun entry member => kept entry (others entry member)
      rw [alterEntries]
      split
      · exact List.forall_mem_cons.mpr ⟨new, List.forall_mem_cons.mpr ⟨kept _ first, rest'⟩⟩
      · exact List.forall_mem_cons.mpr ⟨changed _ _ first, rest'⟩
      · exact List.forall_mem_cons.mpr ⟨kept _ first, ih others⟩

namespace Outcome

variable {bound : Nat}

def Counts.Within (bound : Nat) (counts : Counts) : Prop :=
  ∀ item ∈ counts.entries, 0 < item.2 ∧ item.2 ≤ bound

theorem Counts.Within.succ {counts : Counts} (within : counts.Within bound) : counts.Within (bound + 1) :=
  fun item member => ⟨(within item member).1, Nat.le_succ_of_le (within item member).2⟩

theorem Counts.Within.not_contains {counts : Counts} (within : counts.Within bound) {label : String}
    (none : (counts.find? label).getD 0 = 0) : counts.contains label = false := by
  cases found : counts.entries.find? fun item => compare item.1 label == .eq with
  | none =>
      rw [List.find?_eq_none] at found
      exact List.any_eq_false.mpr found
  | some item =>
      have positive := (within item (List.mem_of_find?_eq_some found)).1
      rw [SortedMap.find?, found] at none
      exact absurd none (Nat.ne_of_gt positive)

namespace Aggregate

structure Within (bound : Nat) (a : Aggregate) : Prop where
  violations : a.violations ≤ bound
  outcomes : a.outcomes.Within bound

variable {a : Aggregate}

theorem within_new (bound : Nat) (since : Option Instant) : Within bound { since } :=
  ⟨Nat.zero_le bound, fun _ member => absurd member List.not_mem_nil⟩

theorem Within.succ (within : Within bound a) : Within (bound + 1) a :=
  ⟨Nat.le_succ_of_le within.violations, within.outcomes.succ⟩

theorem Within.record (within : Within bound a) (label : String) (latency : Duration) (violation : Bool) :
    Within (bound + 1) (a.record label latency violation) where
  violations := by
    have before := within.violations
    simp only [Aggregate.record]
    split <;> omega
  outcomes :=
    SortedMap.forall_alterEntries_of within.outcomes
      (fun _ before => ⟨before.1, Nat.le_succ_of_le before.2⟩)
      ⟨Nat.succ_pos 0, Nat.succ_le_succ (Nat.zero_le bound)⟩
      fun _ count before => ⟨Nat.succ_pos count, Nat.succ_le_succ before.2⟩

theorem Within.recordViolation (within : Within bound a) : Within (bound + 1) a.recordViolation where
  violations := Nat.succ_le_succ within.violations
  outcomes := within.succ.outcomes

end Aggregate

/-! ## Registries and snapshots -/

def Registry.Within (bound : Nat) (r : Registry) : Prop :=
  ∀ entry ∈ r.aggregates.entries, entry.2.Within bound

def Snapshot.Within (bound : Nat) (s : Snapshot) : Prop :=
  ∀ e ∈ s.entries, e.violations ≤ bound ∧ e.outcomes.Within bound

def Registry.Small (r : Registry) : Prop := ∀ entry ∈ r.aggregates.entries, entry.1.node < wordBound

def Snapshot.Small (s : Snapshot) : Prop := ∀ e ∈ s.entries, e.node < wordBound

theorem Snapshot.Within.succ {s : Snapshot} (within : s.Within bound) : s.Within (bound + 1) :=
  fun e member => ⟨Nat.le_succ_of_le (within e member).1, (within e member).2.succ⟩

theorem Snapshot.Within.fits {s : Snapshot} (within : s.Within bound) (few : bound < wordBound)
    (small : s.Small) : s.Fits := by
  intro e member
  obtain ⟨violations, outcomes⟩ := within e member
  exact ⟨small e member, Nat.lt_of_le_of_lt violations few,
    fun item inside => Nat.lt_of_le_of_lt (outcomes item inside).2 few⟩

theorem Snapshot.Within.not_contains {s : Snapshot} (within : s.Within bound) {key : Key} {label : String}
    (none : s.count key label = 0) {e : Entry} (shown : s.get? key.node key.kind = some e) :
    e.outcomes.contains label = false := by
  rw [Snapshot.count, shown] at none
  exact (within e (List.mem_of_find?_eq_some shown)).2.not_contains none

namespace Registry

variable {r : Registry}

theorem Within.succ (within : r.Within bound) : r.Within (bound + 1) :=
  fun entry member => (within entry member).succ

theorem Within.update (within : r.Within bound) {f : Aggregate → Aggregate}
    (changed : ∀ a : Aggregate, a.Within bound → (f a).Within (bound + 1)) (key : Key) :
    (r.update key f).Within (bound + 1) := by
  intro entry member
  obtain ⟨old, among, rfl⟩ := List.mem_map.mp member
  have before := within old among
  simp only
  split
  · exact changed _ before
  · exact before.succ

theorem Within.perform (within : r.Within bound) (op : Op) : (r.perform op).Within (bound + 1) := by
  cases op with
  | register key =>
      exact SortedMap.forall_alterEntries_of within (fun _ before => before.succ)
        (Aggregate.within_new _ none) fun _ _ before => before.succ
  | start key now =>
      have changed (a : Aggregate) (before : a.Within bound) : (a.start now).Within (bound + 1) :=
        ⟨before.succ.violations, before.succ.outcomes⟩
      exact within.update changed key
  | record key label latency violation =>
      exact within.update (fun _ before => before.record label latency violation) key
  | violate key => exact within.update (fun _ before => before.recordViolation) key

theorem within_clear (r : Registry) (bound : Nat) : r.clear.Within bound := by
  intro entry member
  obtain ⟨old, -, rfl⟩ := List.mem_map.mp member
  exact Aggregate.within_new bound _

theorem Within.peek (within : r.Within bound) (now : Instant) : (r.peek now).Within bound := by
  intro e member
  obtain ⟨old, among, rfl⟩ := List.mem_map.mp member
  exact ⟨(within old among).violations, (within old among).outcomes⟩

theorem Small.perform (small : r.Small) {op : Op}
    (new : ∀ key, op = .register key → key.node < wordBound) : (r.perform op).Small := by
  have update (key : Key) (f : Aggregate → Aggregate) : (r.update key f).Small := by
    intro entry member
    obtain ⟨old, among, rfl⟩ := List.mem_map.mp member
    exact small old among
  cases op with
  | register key =>
      exact SortedMap.forall_alterEntries_of small (fun _ before => before) (new key rfl)
        fun _ _ before => before
  | start key _ | record key | violate key => exact update key _

theorem Small.clear (small : r.Small) : r.clear.Small := by
  intro entry member
  obtain ⟨old, among, rfl⟩ := List.mem_map.mp member
  exact small old among

theorem Small.peek (small : r.Small) (now : Instant) : (r.peek now).Small := by
  intro e member
  obtain ⟨old, among, rfl⟩ := List.mem_map.mp member
  exact small old among

end Registry

end Outcome

end LedgerDrill
