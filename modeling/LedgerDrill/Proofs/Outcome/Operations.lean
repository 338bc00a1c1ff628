import LedgerDrill.Proofs.Outcome.Windows

namespace LedgerDrill

namespace SortedMap

variable {κ ν : Type} [Ord κ] [Std.LawfulEqOrd κ] [DecidableEq κ] {m : SortedMap κ ν} {key : κ}

theorem sum_single (value : ν → Nat) :
    (m.entries.map fun entry => if entry.1 = key then value entry.2 else 0).sum =
      ((m.find? key).map value).getD 0 := by
  have others (entries : List (κ × ν)) (ne : ∀ entry ∈ entries, entry.1 ≠ key) :
      (entries.map fun entry => if entry.1 = key then value entry.2 else 0).sum = 0 ∧
        entries.find? (compare ·.1 key == .eq) = none := by
    constructor
    · rw [List.sum_eq_zero_iff_forall_eq_nat, List.forall_mem_map]
      exact fun entry member => if_neg (ne entry member)
    · rw [List.find?_eq_none]
      exact fun entry member same => ne entry member ((compare_beq_eq _ _).mp same)
  cases present : m.contains key with
  | false =>
      have ne : ∀ entry ∈ m.entries, entry.1 ≠ key := by
        rintro ⟨k, v⟩ member rfl
        rw [contains_iff.mpr ⟨v, member⟩] at present
        contradiction
      rw [(others m.entries ne).1, find?, (others m.entries ne).2]
      rfl
  | true =>
      obtain ⟨before, v, after, split, low, high⟩ := exists_split present
      rw [find?, split, List.find?_append, (others before low).2, List.map_append, List.sum_append, List.map_cons,
        List.sum_cons, (others before low).1, (others after high).1]
      simp [Std.compare_self]

end SortedMap

namespace Outcome

/-! ## What a snapshot shows of one loop -/

namespace Snapshot

def count (s : Snapshot) (key : Key) (label : String) : Nat :=
  ((s.get? key.node key.kind).map fun e => (e.outcomes.find? label).getD 0).getD 0

def alarms (s : Snapshot) (key : Key) : Nat :=
  ((s.get? key.node key.kind).map (·.violations)).getD 0

def records (s : Snapshot) (key : Key) : Nat :=
  ((s.get? key.node key.kind).map (·.total)).getD 0

end Snapshot

namespace Registry

variable {r : Registry} {key : Key}

def count (r : Registry) (key : Key) (label : String) : Nat :=
  ((r.get? key).map fun a => (a.outcomes.find? label).getD 0).getD 0

def alarms (r : Registry) (key : Key) : Nat := ((r.get? key).map (·.violations)).getD 0

def records (r : Registry) (key : Key) : Nat := ((r.get? key).map (·.outcomes.total)).getD 0

theorem get?_peek (r : Registry) (key : Key) (now : Instant) :
    (r.peek now).get? key.node key.kind = (r.get? key).map (·.peek key.node key.kind now) := by
  have chosen : (fun e : Entry => e.node == key.node && e.kind == key.kind) ∘
      (fun entry : Key × Aggregate => entry.2.peek entry.1.node entry.1.kind now) =
        (compare ·.1 key == .eq) := by
    funext ⟨⟨node, kind⟩, a⟩
    rw [Bool.eq_iff_iff, SortedMap.compare_beq_eq, Key.mk.injEq]
    exact Bool.and_eq_true_iff.trans (and_congr beq_iff_eq beq_iff_eq)
  simp only [Snapshot.get?, peek, get?, SortedMap.find?, List.find?_map, chosen, Option.map_map]
  cases found : r.aggregates.entries.find? (compare ·.1 key == .eq) with
  | none => rfl
  | some entry =>
      have hit := List.find?_some found
      obtain rfl : entry.1 = key := (SortedMap.compare_beq_eq _ _).mp hit
      rfl

theorem sum_single (value : Aggregate → Nat) :
    r.sum (fun k => decide (k = key)) value = ((r.get? key).map value).getD 0 := by
  rw [sum, get?, ← SortedMap.sum_single]
  simp only [decide_eq_true_eq]

end Registry

/-! ## Operations -/

/-- What loops do to the registry. -/
inductive Op
  | register (key : Key)
  | start (key : Key) (now : Instant)
  | record (key : Key) (label : String) (latency : Duration) (violation : Bool)
  | violate (key : Key)
deriving DecidableEq

namespace Op

def key : Op → Key
  | register key | start key _ | record key .. | violate key => key

/-- A loop has nothing but the aggregate that it got when it was registered. -/
def isAllowed (r : Registry) : Op → Bool
  | register _ => true
  | start key _ | record key .. | violate key => r.contains key

def appends (key : Key) (label : String) : Op → Bool
  | record k l .. => k = key && l = label
  | _ => false

def violates (key : Key) : Op → Bool
  | record k _ _ violation => k = key && violation
  | violate k => k = key
  | _ => false

end Op

def Registry.perform (r : Registry) : Op → Registry
  | .register key => r.register key
  | .start key now => r.update key (·.start now)
  | .record key label latency violation => r.update key (·.record label latency violation)
  | .violate key => r.update key (·.recordViolation)

theorem Registry.perform_of_not_allowed {r : Registry} {op : Op} (refused : op.isAllowed r = false) :
    r.perform op = r := by
  have update {key : Key} (absent : r.contains key = false) (f : Aggregate → Aggregate) :
      r.update key f = r := by
    have entries := SortedMap.entries_modify_of_not_contains absent f
    obtain ⟨⟨_, _⟩⟩ := r
    simp only [Registry.update, Registry.mk.injEq]
    cases h : SortedMap.modify _ key f
    simp_all
  cases op with
  | register key => contradiction
  | start key _ | record key | violate key => exact update refused _

/-! ## Gauges -/

structure Gauge extends Meter where
  alarm : Nat
  violate : ∀ a : Aggregate, value a.recordViolation = value a + alarm

namespace Gauge

def outcomes (key : Key) (label : String) : Gauge where
  shown s := s.count key label
  chosen k := k = key
  value a := (a.outcomes.find? label).getD 0
  gain l _ := if l = label then 1 else 0
  shown_peek r now := by
    rw [Registry.sum_single, Snapshot.count, Registry.get?_peek, Option.map_map]
    rfl
  empty := rfl
  start _ _ := rfl
  record a l _ _ := find?_record a.outcomes l label
  clear _ := rfl
  alarm := 0
  violate _ := rfl

def violations (key : Key) : Gauge where
  toMeter := { Meter.violations key.node with
    shown := (·.alarms key)
    chosen := (· = key)
    shown_peek := by
      intro r now
      rw [Registry.sum_single, Snapshot.alarms, Registry.get?_peek, Option.map_map]
      rfl }
  alarm := 1
  violate _ := rfl

theorem total_record (counts : Counts) (label : String) : (counts.record label).total = counts.total + 1 := by
  rw [Counts.total, Counts.total, ← List.sum_eq_foldl, ← List.sum_eq_foldl]
  exact SortedMap.sum_alterEntries rfl (fun _ => rfl) counts.entries

def all (key : Key) : Gauge where
  shown s := s.records key
  chosen k := k = key
  value a := a.outcomes.total
  gain _ _ := 1
  shown_peek r now := by
    rw [Registry.sum_single, Snapshot.records, Registry.get?_peek, Option.map_map]
    rfl
  empty := rfl
  start _ _ := rfl
  record a l _ _ := total_record a.outcomes l
  clear _ := rfl
  alarm := 0
  violate _ := rfl

def IsOf (g : Gauge) (key : Key) : Prop := ∀ k, g.chosen k = decide (k = key)

variable (g : Gauge) {r : Registry}

def live (r : Registry) : Nat := r.sum g.chosen g.value

def gained : Op → Nat
  | .register _ | .start .. => 0
  | .record key label _ violation => if g.chosen key then g.gain label violation else 0
  | .violate key => if g.chosen key then g.alarm else 0

def tally (ops : List Op) : Nat := (ops.map g.gained).sum

theorem tally_cons (op : Op) (ops : List Op) : g.tally (op :: ops) = g.gained op + g.tally ops :=
  List.sum_cons

theorem tally_append (ops more : List Op) : g.tally (ops ++ more) = g.tally ops + g.tally more := by
  rw [tally, List.map_append, List.sum_append, tally, tally]

theorem live_perform {op : Op} (allowed : op.isAllowed r = true) :
    g.live (r.perform op) = g.live r + g.gained op := by
  cases op with
  | register key => exact Registry.sum_register g.empty
  | start key now =>
      have adds : ∀ a : Aggregate, g.value (a.start now) = g.value a + 0 := fun a => g.start a now
      exact (Registry.sum_update allowed adds).trans (by rw [ite_self]; rfl)
  | record key label latency violation =>
      exact Registry.sum_update allowed fun a => g.record a label latency violation
  | violate key => exact Registry.sum_update allowed g.violate

theorem shown_takeSnapshot (r : Registry) (now : Instant) : g.shown (r.takeSnapshot now).1 = g.live r :=
  g.shown_peek r now

theorem live_takeSnapshot (r : Registry) (now : Instant) : g.live (r.takeSnapshot now).2 = 0 :=
  Registry.sum_clear g.clear

end Gauge

theorem tally_outcomes (key : Key) (label : String) (ops : List Op) :
    (Gauge.outcomes key label).tally ops = ops.countP (Op.appends key label) := by
  induction ops with
  | nil => rfl
  | cons op ops ih =>
      rw [Gauge.tally_cons, ih, List.countP_cons, Nat.add_comm]
      congr 1
      cases op with
      | register | start | violate => simp [Gauge.gained, Gauge.outcomes, Op.appends]
      | record k l latency violation =>
          by_cases sameKey : k = key <;> by_cases sameLabel : l = label <;>
            simp [Gauge.gained, Gauge.outcomes, Op.appends, sameKey, sameLabel]

theorem tally_violations (key : Key) (ops : List Op) :
    (Gauge.violations key).tally ops = ops.countP (Op.violates key) := by
  induction ops with
  | nil => rfl
  | cons op ops ih =>
      rw [Gauge.tally_cons, ih, List.countP_cons, Nat.add_comm]
      congr 1
      cases op with
      | register | start => simp [Gauge.gained, Op.violates]
      | violate k => simp [Gauge.gained, Gauge.violations, Op.violates]
      | record k l latency violation =>
          by_cases sameKey : k = key <;> cases violation <;>
            simp [Gauge.gained, Gauge.violations, Meter.violations, Op.violates, sameKey]

theorem live_outcomes (key : Key) (label : String) (r : Registry) :
    (Gauge.outcomes key label).live r = r.count key label :=
  Registry.sum_single _

theorem live_violations (key : Key) (r : Registry) : (Gauge.violations key).live r = r.alarms key :=
  Registry.sum_single _

theorem live_all (key : Key) (r : Registry) : (Gauge.all key).live r = r.records key :=
  Registry.sum_single _

end Outcome

end LedgerDrill
