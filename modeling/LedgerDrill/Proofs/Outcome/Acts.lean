import LedgerDrill.Proofs.Outcome.Windows
import Mathlib.Data.List.DropRight
import Mathlib.Data.List.Induction

namespace LedgerDrill.Outcome

/-! ## Acts -/

inductive Act
  | start (now : Instant)
  | append (label : String) (latency : Duration)
  | finish (started now : Instant) (message : String) (violation : Bool)
  | violate
  | peek (now : Instant)
  | takeSnapshot (now : Instant)
deriving DecidableEq

namespace Act

/-- The label and the latency of the outcome that is recorded, if one is. -/
def outcome? : Act → Option (String × Duration)
  | append label latency => some (label, latency)
  | finish started now message _ => some (Label.ofText message, .ofNanos (now - started))
  | start _ | violate | peek _ | takeSnapshot _ => none

def violates : Act → Bool
  | violate => true
  | finish _ _ _ violation => violation
  | start _ | append .. | peek _ | takeSnapshot _ => false

def counts (label : String) (act : Act) : Bool := act.outcome?.any (·.1 == label)

def isSnapshot : Act → Bool
  | takeSnapshot _ => true
  | _ => false

def isStart : Act → Bool
  | start _ => true
  | _ => false

def endsNothing (act : Act) : Bool := act.outcome?.isNone

end Act

/-- The act was done, and only such acts as are allowed were done after it. -/
def Act.Since (allowed : Act → Bool) (act : Act) (acts : List Act) : Prop :=
  ∃ earlier later, acts = earlier ++ act :: later ∧ ∀ other ∈ later, allowed other = true

theorem Act.since_append {allowed : Act → Bool} {act last : Act} {acts : List Act} :
    Act.Since allowed act (acts ++ [last]) ↔ last = act ∨ allowed last = true ∧ Act.Since allowed act acts := by
  constructor
  · rintro ⟨earlier, later, split, all⟩
    rcases List.eq_nil_or_concat later with rfl | ⟨later, final, rfl⟩
    · exact Or.inl (List.cons.inj (List.append_inj' split rfl).2).1
    · rw [List.concat_eq_append, ← List.cons_append, ← List.append_assoc] at split
      obtain ⟨before, same⟩ := List.append_inj' split rfl
      rw [← (List.cons.inj same).1, List.concat_eq_append] at all
      refine Or.inr ⟨all last (by simp), earlier, later, before, fun other member => all other ?_⟩
      exact List.mem_append_left _ member
  · rintro (rfl | ⟨also, earlier, later, rfl, all⟩)
    · exact ⟨acts, [], rfl, fun _ member => absurd member List.not_mem_nil⟩
    · refine ⟨earlier, later ++ [last], by simp, ?_⟩
      exact List.forall_mem_append.mpr ⟨all, List.forall_mem_singleton.mpr also⟩

namespace Aggregate

def takeSnapshot (a : Aggregate) (node : Nat) (kind : LoopKind) (now : Instant) : Entry × Aggregate :=
  ({ node, kind
     running := a.since.map fun since => .ofNanos (now - since)
     longest := a.longest, violations := a.violations, outcomes := a.outcomes },
   { a with longest := .zero, outcomes := ∅, violations := 0 })

theorem takeSnapshot_eq (a : Aggregate) (node : Nat) (kind : LoopKind) (now : Instant) :
    a.takeSnapshot node kind now = (a.peek node kind now, a.clear) :=
  rfl

/-- What an act answers with, and the aggregate after it. -/
def perform (a : Aggregate) (node : Nat) (kind : LoopKind) : Act → Option Entry × Aggregate
  | .start now => (none, a.start now)
  | .append label latency => (none, a.append label latency)
  | .finish started now message violation => (none, a.finish started now message violation)
  | .violate => (none, a.recordViolation)
  | .peek now => (some (a.peek node kind now), a)
  | .takeSnapshot now =>
    let (entry, a) := a.takeSnapshot node kind now
    (some entry, a)

def after (node : Nat) (kind : LoopKind) (acts : List Act) : Aggregate :=
  acts.foldl (fun a act => (a.perform node kind act).2) {}

def snapshots (node : Nat) (kind : LoopKind) : Aggregate → List Act → List Entry
  | _, [] => []
  | a, act :: acts =>
    let (answer, next) := a.perform node kind act
    (if act.isSnapshot then answer.toList else []) ++ snapshots node kind next acts

end Aggregate

/-! ## Windows -/

def Act.window (acts : List Act) : List Act := acts.rtakeWhile (!·.isSnapshot)

def Act.latencies (acts : List Act) : List Duration := acts.filterMap fun act => act.outcome?.map (·.2)

/-- The longest of some latencies, and zero if there is none. -/
structure IsLongest (longest : Duration) (latencies : List Duration) : Prop where
  bound : ∀ latency ∈ latencies, latency.nanos ≤ longest.nanos
  attained : longest ∈ latencies ∨ latencies = [] ∧ longest = .zero

/-- What an entry says that is made at an instant, after some acts. -/
structure Entry.Reports (e : Entry) (acts : List Act) (now : Instant) : Prop where
  /-- A label that was not recorded is not there. -/
  outcomes : ∀ label, e.outcomes.find? label =
    let count := (Act.window acts).countP (Act.counts label)
    if count = 0 then none else some count
  violations : e.violations = (Act.window acts).countP Act.violates
  longest : IsLongest e.longest (Act.latencies (Act.window acts))
  /-- An iteration is in flight until its outcome is recorded. Snapshots do not end it. -/
  running : e.running.isSome = true ↔ ∃ started, Act.Since Act.endsNothing (.start started) acts
  /-- The age is that of the last start. -/
  age : ∀ started, Act.Since (fun act => act.endsNothing && !act.isStart) (.start started) acts →
    e.running = some (.ofNanos (now - started))

theorem Act.window_snapshot (acts : List Act) (now : Instant) : window (acts ++ [.takeSnapshot now]) = [] :=
  List.rtakeWhile_concat_neg _ _ _ (by simp [Act.isSnapshot])

theorem Act.window_append (acts : List Act) {act : Act} (other : act.isSnapshot = false) :
    window (acts ++ [act]) = window acts ++ [act] :=
  List.rtakeWhile_concat_pos _ _ _ (by simp [other])

theorem Act.latencies_append (acts more : List Act) : latencies (acts ++ more) = latencies acts ++ latencies more :=
  List.filterMap_append

theorem IsLongest.append {longest : Duration} {latencies : List Duration} (known : IsLongest longest latencies)
    (latency : Duration) : IsLongest (longest.longer latency) (latencies ++ [latency]) := by
  obtain ⟨bound, attained⟩ := known
  unfold Duration.longer
  split
  · next longer =>
      refine ⟨?_, Or.inl (by simp)⟩
      intro other member
      rcases List.mem_append.mp member with member | member
      · exact (bound other member).trans longer.le
      · rw [List.mem_singleton.mp member]
  · next notLonger =>
      have short : latency.nanos ≤ longest.nanos := Nat.le_of_not_lt notLonger
      refine ⟨?_, Or.inl ?_⟩
      · intro other member
        rcases List.mem_append.mp member with member | member
        · exact bound other member
        · rw [List.mem_singleton.mp member]
          exact short
      · rcases attained with member | ⟨rfl, rfl⟩
        · exact List.mem_append_left _ member
        -- A first latency that is not longer than zero is zero.
        · have zero : latency = .zero := Duration.ext_nanos (Nat.le_zero.mp short)
          rw [zero]
          exact List.mem_singleton.mpr rfl

/-! ## One act -/

theorem Counts.find?_record (counts : Counts) (label other : String) :
    (counts.record label).find? other =
      if label = other then some ((counts.find? other).getD 0 + 1) else counts.find? other := by
  unfold Counts.record
  split
  · next same =>
      rw [same]
      exact SortedMap.find?_alter_self _
  · next different => exact SortedMap.find?_alter_ne _ different

theorem Counts.found_record {counts : Counts} {label other : String} {n : Nat}
    (found : counts.find? other = if n = 0 then none else some n) :
    (counts.record label).find? other =
      let count := n + if label = other then 1 else 0
      if count = 0 then none else some count := by
  rw [Counts.find?_record]
  by_cases same : label = other
  · have known : (counts.find? other).getD 0 = n := by
      rw [found]
      split
      · next none => exact none.symm
      · rfl
    simp [same, known]
  · simpa [same] using found

namespace Aggregate

variable {node : Nat} {kind : LoopKind}

theorem after_append (acts : List Act) (act : Act) :
    after node kind (acts ++ [act]) = ((after node kind acts).perform node kind act).2 := by
  rw [after, List.foldl_append]
  rfl

theorem find?_after (acts : List Act) (label : String) :
    (after node kind acts).outcomes.find? label =
      let count := (Act.window acts).countP (Act.counts label)
      if count = 0 then none else some count := by
  induction acts using List.reverseRecOn with
  | nil => rfl
  | append_singleton acts act ih =>
      rw [after_append]
      cases act with
      | takeSnapshot now => rw [Act.window_snapshot]; rfl
      | start now | violate | peek now =>
          rw [Act.window_append _ rfl, List.countP_append]
          exact ih
      | append l latency | finish started now l violation =>
          rw [Act.window_append _ rfl, List.countP_append, List.countP_singleton]
          simp only [Act.counts, Act.outcome?, Option.any_some, beq_iff_eq]
          exact Counts.found_record ih

theorem violations_after (acts : List Act) :
    (after node kind acts).violations = (Act.window acts).countP Act.violates := by
  induction acts using List.reverseRecOn with
  | nil => rfl
  | append_singleton acts act ih =>
      rw [after_append]
      cases act with
      | takeSnapshot now => rw [Act.window_snapshot]; rfl
      | start now | append label latency | peek now =>
          rw [Act.window_append _ rfl, List.countP_append]
          exact ih
      | violate =>
          rw [Act.window_append _ rfl, List.countP_append, ← ih]
          rfl
      | finish started now message violation =>
          rw [Act.window_append _ rfl, List.countP_append, ← ih]
          cases violation <;> rfl

theorem isLongest_after (acts : List Act) :
    IsLongest (after node kind acts).longest (Act.latencies (Act.window acts)) := by
  induction acts using List.reverseRecOn with
  | nil => exact ⟨fun _ member => absurd member List.not_mem_nil, Or.inr ⟨rfl, rfl⟩⟩
  | append_singleton acts act ih =>
      rw [after_append]
      cases act with
      | takeSnapshot now =>
          rw [Act.window_snapshot]
          exact ⟨fun _ member => absurd member List.not_mem_nil, Or.inr ⟨rfl, rfl⟩⟩
      | start now | violate | peek now =>
          rw [Act.window_append _ rfl, Act.latencies_append]
          exact (List.append_nil _).symm ▸ ih
      | append label latency | finish started now message violation =>
          rw [Act.window_append _ rfl, Act.latencies_append]
          exact ih.append _

theorem isSome_since_iff (acts : List Act) :
    (after node kind acts).since.isSome = true ↔ ∃ started, Act.Since Act.endsNothing (.start started) acts := by
  induction acts using List.reverseRecOn with
  | nil => simp [after, Act.Since]
  | append_singleton acts act ih =>
      rw [after_append]
      simp only [Act.since_append, exists_or, exists_and_left, ← ih]
      cases act with
      | start now => simp [perform, start]
      | append | finish => simp [perform, Aggregate.append, finish, record, Act.endsNothing, Act.outcome?]
      | violate | peek now | takeSnapshot now =>
          simp [perform, recordViolation, takeSnapshot, Act.endsNothing, Act.outcome?]

theorem since_after {acts : List Act} {started : Instant}
    (last : Act.Since (fun act => act.endsNothing && !act.isStart) (.start started) acts) :
    (after node kind acts).since = some started := by
  induction acts using List.reverseRecOn with
  | nil => simp [Act.Since] at last
  | append_singleton acts act ih =>
      rw [after_append]
      rcases Act.since_append.mp last with rfl | ⟨quiet, before⟩
      · rfl
      · cases act with
        | start now | append | finish => simp [Act.endsNothing, Act.isStart, Act.outcome?] at quiet
        | violate | peek now | takeSnapshot now => exact ih before

theorem reports_after (acts : List Act) (now : Instant) :
    ((after node kind acts).peek node kind now).Reports acts now where
  outcomes := find?_after acts
  violations := violations_after acts
  longest := isLongest_after acts
  running := by
    rw [← @isSome_since_iff node kind]
    exact Bool.eq_iff_iff.mp Option.isSome_map
  age started last := by
    rw [peek, since_after last]
    rfl

/-! ## All snapshots -/

variable (a : Aggregate)

theorem snapshots_append (acts more : List Act) :
    snapshots node kind a (acts ++ more) = snapshots node kind a acts ++
      snapshots node kind (acts.foldl (fun a act => (a.perform node kind act).2) a) more := by
  induction acts generalizing a with
  | nil => rfl
  | cons act acts ih => simp only [List.cons_append, snapshots, ih, List.foldl_cons, List.append_assoc]

theorem length_snapshots (acts : List Act) :
    (snapshots node kind a acts).length = acts.countP Act.isSnapshot := by
  induction acts generalizing a with
  | nil => rfl
  | cons act acts ih =>
      rw [snapshots, List.length_append, ih, List.countP_cons, Nat.add_comm]
      cases act <;> rfl

/-- However an aggregate is used, every snapshot reports the window that it ends: each label as often as it was
recorded there and no other label, the violations of the window (an outcome that comes with a violation is
counted on both sides), its longest latency, and the iteration in flight. A look at the window gives what a
snapshot would give at that instant, and leaves all later answers as they would have been. -/
theorem windows_are_exact (node : Nat) (kind : LoopKind) (before : List Act) (now : Instant) (later : List Act) :
    let a := after node kind before
    let e := a.peek node kind now
    (snapshots node kind {} (before ++ .takeSnapshot now :: later))[before.countP Act.isSnapshot]? = some e ∧
    (e.node = node ∧ e.kind = kind) ∧ e.Reports before now ∧
    (∀ started ended message, .finish started ended message true ∈ Act.window before →
      (e.outcomes.find? (Label.ofText message)).isSome = true ∧ 0 < e.violations) ∧
    (a.perform node kind (.peek now)).1 = some e ∧ (a.perform node kind (.takeSnapshot now)).1 = some e ∧
    after node kind (before ++ .peek now :: later) = after node kind (before ++ later) ∧
    snapshots node kind {} (before ++ .peek now :: later) = snapshots node kind {} (before ++ later) := by
  intro a e
  have reports : e.Reports before now := reports_after before now
  refine ⟨?_, ⟨rfl, rfl⟩, reports, ?_, rfl, rfl, ?_, ?_⟩
  · rw [snapshots_append, ← @length_snapshots node kind {},
      List.getElem?_append_right (Nat.le_refl _), Nat.sub_self]
    rfl
  · intro started ended message member
    have counted : 0 < (Act.window before).countP (Act.counts (Label.ofText message)) :=
      List.countP_pos_iff.mpr ⟨_, member, by simp [Act.counts, Act.outcome?]⟩
    constructor
    · rw [reports.outcomes]
      simp [Nat.ne_of_gt counted]
    · rw [reports.violations]
      exact List.countP_pos_iff.mpr ⟨_, member, rfl⟩
  · simp only [after, List.foldl_append, List.foldl_cons]
    rfl
  · rw [snapshots_append, snapshots_append]
    rfl

end Aggregate

end LedgerDrill.Outcome
