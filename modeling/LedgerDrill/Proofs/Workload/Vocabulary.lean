import LedgerDrill.Proofs.Experiment.Site
import LedgerDrill.Proofs.Outcome.Bounds
import LedgerDrill.Proofs.Workload.Drill
import LedgerDrill.Proofs.Workload.Regular

namespace LedgerDrill

namespace Outcome

/-! ## Registries -/

def Registry.Speaks (r : Registry) : Prop :=
  ∀ entry ∈ r.aggregates.entries, ∀ item ∈ entry.2.outcomes.entries, item.1 ∈ vocabulary entry.1.node

def Snapshot.Speaks (s : Snapshot) : Prop :=
  ∀ e ∈ s.entries, ∀ item ∈ e.outcomes.entries, item.1 ∈ vocabulary e.node

def Op.Speaks : Op → Prop
  | .record key label .. => label ∈ vocabulary key.node
  | .register _ | .start .. | .violate _ => True

namespace Registry

variable {r : Registry}

theorem Speaks.update (speaks : r.Speaks) {key : Key} {f : Aggregate → Aggregate}
    (changed : ∀ a : Aggregate, (∀ item ∈ a.outcomes.entries, item.1 ∈ vocabulary key.node) →
      ∀ item ∈ (f a).outcomes.entries, item.1 ∈ vocabulary key.node) : (r.update key f).Speaks := by
  intro entry member
  obtain ⟨⟨other, a⟩, among, rfl⟩ := List.mem_map.mp member
  have before := speaks _ among
  simp only
  split
  · next same =>
      obtain rfl : other = key := (SortedMap.compare_beq_eq _ _).mp same
      exact changed a before
  · exact before

theorem Speaks.perform (speaks : r.Speaks) {op : Op} (known : op.Speaks) : (r.perform op).Speaks := by
  cases op with
  | register key =>
      exact SortedMap.forall_alterEntries_of speaks (fun _ before => before)
        (fun _ member => absurd member List.not_mem_nil) fun _ _ before => before
  | start key now => exact speaks.update fun _ before => before
  | violate key => exact speaks.update fun _ before => before
  | record key label latency violation =>
      refine speaks.update fun a before => ?_
      exact SortedMap.forall_alterEntries_of before (fun _ kept => kept) known fun _ _ kept => kept

theorem speaks_clear (r : Registry) : r.clear.Speaks := by
  intro entry member
  obtain ⟨old, -, rfl⟩ := List.mem_map.mp member
  exact fun _ none => absurd none List.not_mem_nil

theorem Speaks.peek (speaks : r.Speaks) (now : Instant) : (r.peek now).Speaks := by
  intro e member
  obtain ⟨old, among, rfl⟩ := List.mem_map.mp member
  exact speaks old among

end Registry

end Outcome

namespace Workload
open Cluster Outcome

/-! ## Tasks -/

section
variable {rows : Nat → Prop} {c : Cluster} {l : Loop Session}

theorem Ran.speaks {turn : LoopTurn Cluster Session Waiting} (ran : Ran rows c l turn) (able : l.body.Able)
    (bound : l.node < c.size) (rowed : c.Rowed rows) (started now : Instant) :
    ∀ op ∈ endingOps turn.loop.key started now turn.ending, op.Speaks := by
  intro op member
  obtain ⟨ending, ended, rfl⟩ := mem_endingOps member
  change Label.ofText (Ending.message ending) ∈ vocabulary turn.loop.node
  rw [ran.node]
  cases ending with
  | ok changed => exact Label.ofText_commit ▸ List.mem_cons_self
  | error e => exact (ran.expected able bound rowed e ended).mem_vocabulary

theorem Task.Regular.speaks {task : Task Session Waiting} (regular : task.Regular rows) (able : task.Able c.size)
    (rowed : c.Rowed rows) (expired : Bool) (random : Nat) (now : Instant) :
    ∀ op ∈ task.ops c expired random now, op.Speaks := by
  cases task with
  | statement | iteration => contradiction
  | running i flag completed =>
      obtain ⟨home, within, point⟩ := regular
      exact (ran_resume within home point expired random c).speaks able.1 able.2 rowed i.started now
  | resting loop flag completed =>
      obtain ⟨home, within⟩ := regular
      cases flag with
      | false => exact fun _ none => absurd none List.not_mem_nil
      | true =>
          refine List.forall_mem_cons.mpr ⟨trivial, ?_⟩
          exact (ran_start within home random c).speaks able.1 able.2 rowed now now

theorem waiting_of_task? {course : Course Session Waiting} {task : Task Session Waiting}
    (goesOn : course.task? = some task) : ∃ wait, course = .waiting wait task := by
  cases course with
  | landed => cases goesOn
  | waiting wait next => cases goesOn; exact ⟨wait, rfl⟩

theorem Registry.Speaks.foldl {ops : List Op} {r : Registry} (speaks : r.Speaks)
    (known : ∀ op ∈ ops, op.Speaks) : (ops.foldl Registry.perform r).Speaks :=
  List.foldlRecOn (motive := Registry.Speaks) ops Registry.perform speaks fun _ before op member =>
    before.perform (known op member)

end

/-- Loops are transfers between so many accounts or watch the total, and are on nodes of the cluster. -/
def Event.suits (settings : Cluster.Settings) (n : Nat) : Event → Bool
  | .launch node (.transfer accounts _) _ => node < settings.nodes && accounts == n
  | .launch node (.sumTotal _) _ => node < settings.nodes
  | _ => true

namespace Drill

/-! ## The drill -/

/-- The rows are there, the loops go on as they should, and all that was told is in the vocabulary. -/
structure Fluent (settings : Cluster.Settings) (n : Nat) (d : Drill) : Prop where
  size : d.shared.store.size = settings.nodes
  rowed : d.shared.store.Rowed (· ≤ n)
  tasks : ∀ r ∈ d.runners, ∀ task, r.task = some task → task.Regular (· ≤ n) ∧ task.Able settings.nodes
  registry : d.shared.registry.Speaks
  snapshots : ∀ s ∈ d.snapshots, s.Speaks

variable {settings : Cluster.Settings} {n : Nat} {d : Drill}

theorem Fluent.retask (fluent : d.Fluent settings n) (i : Nat)
    {f : Task Session Waiting → Option (Task Session Waiting)}
    (keeps : ∀ task task', f task = some task' → task.Regular (· ≤ n) ∧ task.Able settings.nodes →
      task'.Regular (· ≤ n) ∧ task'.Able settings.nodes) : (d.retask i f).Fluent settings n := by
  unfold Drill.retask
  split
  · next runner found =>
      refine ⟨fluent.size, fluent.rowed, ?_, fluent.registry, fluent.snapshots⟩
      intro r member task hasTask
      rcases List.mem_or_eq_of_mem_set member with old | rfl
      · exact fluent.tasks r old task hasTask
      · obtain ⟨before, had, made⟩ := Option.bind_eq_some_iff.mp hasTask
        exact keeps before task made (fluent.tasks runner (List.mem_of_getElem? found) before had)
  · exact fluent

theorem Fluent.advance (fluent : d.Fluent settings n) {i : Nat} {runner : Runner} (found : runner ∈ d.runners)
    {task : Task Session Waiting} (hasTask : runner.task = some task) (expired : Bool) (random : Nat)
    (now : Instant) : (d.advance i runner task expired random now).Fluent settings n := by
  obtain ⟨regular, able⟩ := fluent.tasks runner found task hasTask
  obtain ⟨steady, goesOn⟩ := regular.resume d.shared expired random now
  refine ⟨steady.served.alike.size.trans fluent.size, steady.rowed _ fluent.rowed, ?_, ?_, fluent.snapshots⟩
  · intro r member task' hasTask'
    rcases List.mem_or_eq_of_mem_set member with old | rfl
    · exact fluent.tasks r old task' hasTask'
    · obtain ⟨wait, course⟩ := waiting_of_task? hasTask'
      obtain ⟨regular', able'⟩ := goesOn wait task' course
      exact ⟨regular', able' _ able⟩
  · change (d.shared.resume task expired random now).1.registry.Speaks
    rw [registry_resume]
    exact Registry.Speaks.foldl fluent.registry
      (regular.speaks (fluent.size ▸ able) fluent.rowed expired random now)

theorem Fluent.step (fluent : d.Fluent settings n) (enough : 3 ≤ n) {event : Event}
    (suits : event.suits settings n = true) : (d.step event).Fluent settings n := by
  cases event with
  | wake i expired random now =>
      simp only [Drill.step]
      split
      · next runner found =>
          split
          · next task hasTask => exact fluent.advance (List.mem_of_getElem? found) hasTask expired random now
          · exact fluent
      · exact fluent
  | setFlag i value =>
      refine fluent.retask i ?_
      rintro task _ ⟨⟩ ⟨regular, able⟩
      exact ⟨regular.setFlag value, able.setFlag value⟩
  | abort i => exact fluent.retask i fun _ _ dropped => by cases dropped
  | fault fault =>
      exact ⟨(size_inject fault _).trans fluent.size, fluent.rowed.inject fault, fluent.tasks, fluent.registry,
        fluent.snapshots⟩
  | takeSnapshot now =>
      refine ⟨fluent.size, fluent.rowed, fluent.tasks, Registry.speaks_clear _, ?_⟩
      refine List.forall_mem_append.mpr ⟨fluent.snapshots, ?_⟩
      exact List.forall_mem_singleton.mpr (fluent.registry.peek now)
  | launch node body loopSettings =>
      have registers : (Op.register ⟨node, body.kind⟩).Speaks := trivial
      refine ⟨fluent.size, fluent.rowed, ?_, fluent.registry.perform registers, fluent.snapshots⟩
      refine List.forall_mem_append.mpr ⟨fluent.tasks, List.forall_mem_singleton.mpr ?_⟩
      rintro _ ⟨⟩
      cases body with
      | sumTotal watch => exact ⟨⟨nofun, trivial⟩, trivial, decide_eq_true_iff.mp suits⟩
      | transfer accounts amount =>
          obtain ⟨bound, same⟩ := (Bool.and_eq_true _ _).mp suits
          obtain rfl := beq_iff_eq.mp same
          refine ⟨⟨nofun, fun random => ?_⟩, enough, decide_eq_true_iff.mp bound⟩
          have drawn : random % (accounts - 2) < accounts - 2 := Nat.mod_lt random (by omega)
          simp only [Body.drawSource]
          omega

theorem fluent_run {calls : List Call} (seeded : (Ledger.run settings calls).changes = [.create n])
    (enough : 3 ≤ n) {events : List Event} (suits : ∀ event ∈ events, event.suits settings n = true) :
    (run settings calls events).Fluent settings n := by
  refine List.foldlRecOn (motive := Fluent settings n) events Drill.step ?_ fun _ fluent event member =>
    fluent.step enough (suits event member)
  have rowed : (Ledger.run settings calls).cluster.Rowed (· ≤ n) := by
    intro r member fresh uid row
    obtain ⟨node, found⟩ := List.mem_iff_getElem?.mp member
    have table : (Ledger.run settings calls).table = .seed n := by rw [Ledger.table, seeded]; rfl
    rw [(Ledger.faithful_run settings calls).fresh node r found fresh, table, Accounts.contains_seed]
    exact decide_eq_true row
  exact ⟨size_ledger settings calls, rowed, fun _ none => absurd none List.not_mem_nil,
    fun _ none => absurd none List.not_mem_nil, fun _ none => absurd none List.not_mem_nil⟩

/-! ## Labels -/

/-- A label that is shown for a node, in a snapshot that was taken or in the window that goes on. -/
def Recorded (d : Drill) (node : Nat) (label : String) : Prop :=
  ∃ s, (s ∈ d.snapshots ∨ ∃ now, s = d.shared.registry.peek now) ∧
    ∃ e ∈ s.entries, e.node = node ∧ e.outcomes.contains label = true

/-- However loops, faults, snapshots and aborts follow each other on accounts that were made once, every label
that is ever recorded for a node is a commit or one of the errors that its cluster has for it. None names a
transaction, and none tells of a row that is missing or of a transaction that failed before. -/
theorem labels_are_closed (settings : Cluster.Settings) (calls : List Call) (n : Nat) (enough : 3 ≤ n)
    (seeded : (Ledger.run settings calls).changes = [.create n]) (events : List Event)
    (suits : ∀ event ∈ events, event.suits settings n = true) (node : Nat) (label : String)
    (recorded : (run settings calls events).Recorded node label) :
    label ∈ vocabulary node ∧ (∀ id : TransactionId, ¬ id.text.toList <:+: label.toList) ∧
      ∀ e, isForeign e = true → label ≠ Label.ofText e.message := by
  have fluent := fluent_run seeded enough suits
  obtain ⟨s, taken, e, member, rfl, counted⟩ := recorded
  have speaks : s.Speaks := by
    rcases taken with taken | ⟨now, rfl⟩
    · exact fluent.snapshots s taken
    · exact fluent.registry.peek now
  obtain ⟨count, inside⟩ := SortedMap.contains_iff.mp counted
  have known : label ∈ vocabulary e.node := speaks e member _ inside
  refine ⟨known, nameless_of_mem_vocabulary known, ?_⟩
  rintro other foreign rfl
  exact notMem_vocabulary_of_foreign foreign known

def stoppedTransfer : List Event :=
  [.launch 0 (.transfer 4 7) ⟨.zero, .zero⟩] ++ (List.range 8).map (fun random => .wake 0 false random 10) ++
  [.fault (.shutdown 0), .takeSnapshot 15] ++ List.replicate 6 (.wake 0 false 3 20)

theorem labels_of_stoppedTransfer :
    let d := run {} [.openSession 0, .createAccounts 0 0 4] stoppedTransfer
    d.Recorded 0 "commit" ∧ d.Recorded 0 "server closed the connection unexpectedly" ∧
    d.Recorded 0 "could not connect to node 1: Connection refused" ∧
    ∀ label, d.Recorded 0 label → label ∈ vocabulary 0 := by
  intro d
  have closed := labels_are_closed {} [.openSession 0, .createAccounts 0 0 4] 4 (by decide) (by decide)
    stoppedTransfer (by decide) 0
  obtain ⟨s, taken, committed⟩ :
      ∃ s ∈ d.snapshots, ∃ e ∈ s.entries, e.node = 0 ∧ e.outcomes.contains "commit" = true := by decide +kernel
  refine ⟨⟨s, Or.inl taken, committed⟩, ⟨_, Or.inr ⟨20, rfl⟩, by decide +kernel⟩,
    ⟨_, Or.inr ⟨20, rfl⟩, by decide +kernel⟩, fun label recorded => (closed label recorded).1⟩

end Drill

end Workload

end LedgerDrill
