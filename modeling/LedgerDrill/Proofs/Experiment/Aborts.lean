import LedgerDrill.Proofs.Experiment.Teardown

namespace LedgerDrill
open Cluster (Session Waiting)

namespace Workload.Drill
open Cluster

variable {settings : Cluster.Settings} {d : Drill} {i : Nat} {task : Task Session Waiting}

/-! ## What an aborted loop does -/

structure Ended (i : Nat) (rounds : List Round) (d : Drill) : Prop where
  idle : ∃ runner, d.runners[i]? = some runner ∧ runner.task = none
  rounds : d.rounds.filter (·.runner == i) = rounds

variable {rounds : List Round}

theorem Ended.apart (ended : d.Ended i rounds) {j : Nat} {runner : Runner} (found : d.runners[j]? = some runner)
    (hasTask : runner.task = some task) : j ≠ i := by
  rintro rfl
  obtain ⟨other, found', none⟩ := ended.idle
  cases found.symm.trans found'
  cases hasTask.symm.trans none

theorem ended_abort (waits : d.runners[i]?.bind (·.task) = some task) :
    (d.step (.abort i)).Ended i (d.rounds.filter (·.runner == i)) := by
  obtain ⟨runner, found, hasTask⟩ := Option.bind_eq_some_iff.mp waits
  simp only [Drill.step]
  rw [retask_of_some found hasTask]
  exact ⟨⟨_, List.getElem?_set_self (List.getElem?_eq_some_iff.mp found).1, rfl⟩, rfl⟩

theorem Ended.retask (ended : d.Ended i rounds) (j : Nat) (f : Task Session Waiting → Option (Task Session Waiting)) :
    (d.retask j f).Ended i rounds := by
  cases idle : d.runners[j]?.bind (·.task) with
  | none => exact (retask_of_none idle f).symm ▸ ended
  | some task =>
      obtain ⟨runner, found, hasTask⟩ := Option.bind_eq_some_iff.mp idle
      obtain ⟨other, found', none⟩ := ended.idle
      rw [retask_of_some found hasTask]
      exact ⟨⟨other, (List.getElem?_set_ne (ended.apart found hasTask)).trans found', none⟩, ended.rounds⟩

theorem Ended.step (ended : d.Ended i rounds) (event : Event) : (d.step event).Ended i rounds := by
  obtain ⟨other, found', none⟩ := ended.idle
  cases event with
  | fault | takeSnapshot => exact ⟨ended.idle, ended.rounds⟩
  | setFlag j value => exact ended.retask j _
  | abort j => exact ended.retask j _
  | launch => exact ⟨⟨other, getElem?_concat_eq_some.mpr (Or.inl found'), none⟩, ended.rounds⟩
  | wake j expired random now =>
      simp only [Drill.step]
      split
      · next runner found =>
          split
          · next task hasTask =>
              have apart := ended.apart found hasTask
              refine ⟨⟨other, (List.getElem?_set_ne apart).trans found', none⟩, ?_⟩
              have elsewhere (stride : Stride) : (stride.rounds j runner.node).filter (·.runner == i) = [] := by
                obtain ⟨draw, calls, ending⟩ := stride
                cases ending <;> simp [Stride.rounds, apart]
              simp only [Drill.advance, List.filter_append, elsewhere, List.append_nil]
              exact ended.rounds
          · exact ended
      · exact ended

theorem Ended.run (ended : d.Ended i rounds) (history : List Incident) : (history.foldl undergo d).Ended i rounds :=
  List.foldlRecOn (motive := Ended i rounds) history undergo ended fun _ ended incident _ => by
    cases incident with
    | event event => exact ended.step event
    | statement s statement => exact ⟨ended.idle, ended.rounds⟩

/-! ## What it leaves -/

/-- In the history the loop is aborted where it waits with the task, after the part `before`. -/
def Aborts (settings : Cluster.Settings) (history before : List Incident) (i : Nat) (task : Task Session Waiting) :
    Prop :=
  ∃ rest, history = before ++ .event (.abort i) :: rest ∧
    (after settings before).runners[i]?.bind (·.task) = some task

variable {history before : List Incident}

theorem lost_append (d : Drill) (before rest : List Incident) :
    d.lost (before ++ rest) = d.lost before ++ (before.foldl undergo d).lost rest := by
  induction before generalizing d with
  | nil => rfl
  | cons incident before ih =>
      cases incident with
      | event event =>
          rw [List.cons_append, lost, ih, lost, List.append_assoc]
          rfl
      | statement s statement =>
          rw [List.cons_append, lost, ih, lost]
          rfl

theorem Aborts.lookup (aborts : Aborts settings history before i task) :
    ((fresh settings).lost history).lookup i = some task := by
  obtain ⟨rest, rfl, waits⟩ := aborts
  obtain ⟨t, carried⟩ := carried_after settings before
  obtain ⟨runner, found, hasTask⟩ := Option.bind_eq_some_iff.mp waits
  have unmarked := carried.lookup_eq_none found hasTask
  have lost : ((fresh settings).lost (before ++ .event (.abort i) :: rest)) =
      (fresh settings).lost before ++ ((i, task) :: ((after settings before).step (.abort i)).lost rest) := by
    rw [lost_append, Drill.lost]
    change _ ++ ((((after settings before).runners[i]?.bind (·.task)).map (i, ·)).toList ++ _) = _
    rw [waits]
    rfl
  rw [lost, List.lookup_append, unmarked, Option.none_or, List.lookup_cons_self]

theorem Aborts.forgets (aborts : Aborts settings history before i task) {id : TransactionId}
    (carries : task.id? = some id) (early : task.prepared? = none) {r : Replica}
    (member : r ∈ (after settings history).shared.store.replicas) (up : r.up = true) : id ∉ r.prepared := by
  intro held
  obtain ⟨t, carried⟩ := carried_after settings history
  obtain ⟨node, found⟩ := List.mem_iff_getElem?.mp member
  obtain ⟨-, -, j, runner, task', located, left, prepared⟩ := (carried.owns node r found up).2 id held
  have lost := aborts.lookup
  obtain ⟨other, located', none⟩ := carried.gone i task lost
  have left' : other.task.or (((fresh settings).lost history).lookup i) = some task := by
    rw [none, Option.none_or, lost]
  obtain rfl := carried.apart located' left' carries located left (Task.id?_of_prepared? prepared)
  cases located.symm.trans located'
  cases left.symm.trans left'
  cases prepared.symm.trans early

theorem owned_after (settings : Cluster.Settings) (history : List Incident) :
    Owns (after settings history).shared.store fun id =>
      (∃ runner ∈ (after settings history).runners, ∃ task, runner.task = some task ∧ task.prepared? = some id) ∨
      ∃ before i task, Aborts settings history before i task ∧ task.prepared? = some id := by
  obtain ⟨t, carried⟩ := carried_after settings history
  refine carried.owns.imp ?_
  rintro id ⟨i, runner, task, found, left, prepared⟩
  rcases Option.or_eq_some_iff.mp left with live | ⟨-, lost⟩
  · exact Or.inl ⟨runner, List.mem_of_getElem? found, task, live, prepared⟩
  · obtain ⟨front, back, split, -⟩ := List.lookup_eq_some_iff.mp lost
    have member : (i, task) ∈ (fresh settings).lost history := split ▸ List.mem_append_right front List.mem_cons_self
    obtain ⟨before, rest, same, waits⟩ := exists_abort member
    exact Or.inr ⟨before, i, task, ⟨rest, same, waits⟩, prepared⟩

end Workload.Drill

/-! ## Forced ends -/

namespace Client
open Cluster Workload

variable {settings : Cluster.Settings} {c c' : Client Cluster Session Waiting}

theorem owns_answered {c c' : Cluster} {s s' : Session} {statement : Statement} {answer : Answer}
    (owns : Owns c fun _ => False) (executed : execute c s statement = answered c' s' answer) :
    Owns c' fun _ => False := by
  have thins := thins_execute c s statement
  rw [executed] at thins
  exact owns.thin thins

theorem quiet_of_compared (quiet : c.workplace.Quiet) (owns : Owns c.store fun _ => False) {same : Bool}
    (compared : Client.isDataIdentical c = (.ok same, c')) : c'.workplace.Quiet ∧ Owns c'.store fun _ => False := by
  have tells (c : Cluster) (s : Session) (c' : Cluster) (s' : Session) (answer : Answer)
      (owns : Owns c fun _ => False) (executed : execute c s .digest = answered c' s' answer) :
      (Owns c' fun _ => False) ∧ ∀ reply, answer = .ok reply → True :=
    ⟨owns_answered owns executed, fun _ _ => trivial⟩
  obtain ⟨result, c₁, asked, quiet', owns', -⟩ :=
    askAll_any rfl tells "digest" (List.range c.nodeCount) quiet owns
  rw [isDataIdentical_eq, asked] at compared
  rcases result with e | (_ | ⟨first, rest⟩) <;> cases compared <;> exact ⟨quiet', owns'⟩

theorem count_of_owns (quiet : c.workplace.Quiet) (owns : Owns c.store fun _ => False) {count : Nat}
    (counted : Client.prepared c = (.ok count, c')) : count = 0 := by
  have tells (c : Cluster) (s : Session) (c' : Cluster) (s' : Session) (answer : Answer)
      (owns : Owns c fun _ => False) (executed : execute c s .prepared = answered c' s' answer) :
      (Owns c' fun _ => False) ∧ ∀ reply, answer = .ok reply → reply.count = 0 := by
    refine ⟨owns_answered owns executed, fun reply told => ?_⟩
    simp only [execute] at executed
    cases isOpen : c.isOpen s.node s.epoch with
    | false =>
        simp only [preparedOn, isOpen, Bool.false_eq_true, if_false] at executed
        cases executed
        cases told
    | true =>
        rw [preparedOn_eq_zero owns isOpen] at executed
        cases executed
        cases told
        rfl
  obtain ⟨result, c₁, asked, -, -, zero⟩ :=
    askAll_any rfl tells "prepared transactions" (List.range c.nodeCount) quiet owns
  rw [prepared_eq, asked] at counted
  cases result with
  | error e => cases counted
  | ok replies =>
      cases counted
      exact List.sum_eq_zero_iff_forall_eq_nat.mpr (List.forall_mem_map.mpr (zero replies rfl))

theorem not_preparedLeft (quiet : c.workplace.Quiet) (owns : Owns c.store fun _ => False)
    {stop : Action (Client Cluster Session Waiting) WorkerReport} {c₀ : Client Cluster Session Waiting}
    {report : WorkerReport} (stopped : stop c₀ = (.ok report, c)) (timings : Timings) (count : Nat) :
    (Suite.teardown { controls with stop } timings c₀).1 ≠ .ok (.error (.preparedLeft count)) := by
  intro reported
  obtain ⟨_, c₁, c₂, c₃, stopped', compared, counted, left⟩ := Suite.teardown_preparedLeft reported
  obtain ⟨-, rfl⟩ := Prod.mk.inj (stopped.symm.trans stopped')
  obtain ⟨quiet', shared⟩ := quiet.pause (.pause timings.stopDelay)
  have owns' : Owns (controls.rest timings.stopDelay c).store fun _ => False := by
    rw [show (controls.rest timings.stopDelay c).store = c.store from congrArg Shared.store shared]
    exact owns
  obtain ⟨quiet₂, owns₂⟩ := quiet_of_compared (c := controls.rest timings.stopDelay c) quiet' owns' compared
  exact left (count_of_owns quiet₂ owns₂ counted)

theorem Used.owns_stop (used : Used settings c) {w : Worker} (worker : c.worker = some w)
    (early : ∀ flight ∈ (w.deadline c.workplace).flights, flight.2.task.prepared? = none) {report : WorkerReport}
    (stopped : Client.stop c = (.ok report, c')) : c'.workplace.Quiet ∧ Owns c'.store fun _ => False := by
  have lodged := used.lodged
  obtain ⟨w', _, worker', -, ended⟩ := stop_ok stopped
  cases worker.symm.trans worker'
  rcases Worker.stop_cases ended with ⟨-, same, -⟩ | ⟨idle, same⟩
  · rw [Client.store, same]
    refine ⟨⟨rfl, rfl⟩, (Worker.lodges_deadline lodged.lodges w).owns.imp ?_⟩
    rintro id ⟨flight, flown, prepared⟩
    cases (early flight flown).symm.trans prepared
  · have quiet := lodged.quiet (by rw [isRunning, worker]; exact idle)
    rw [Client.store, same]
    refine ⟨quiet, lodged.lodges.owns.imp ?_⟩
    rintro id ⟨flight, flown, -⟩
    rw [quiet.flights] at flown
    cases flown

/-- Whatever happens to loops of which some are aborted, where commits are made in one step. Only iterations that
have succeeded have written, and an aborted loop ends no iteration any more. The transaction of a loop that was
aborted before it was prepared is not prepared anywhere; what is prepared on a node that is up belongs to a loop
that waits between the phases of its commit, or that was aborted there. So a forced end of a workload makes the
teardown count prepared transactions only if it finds a loop between these phases. -/
theorem aborts_leave_only_prepared (settings : Cluster.Settings) (plain : settings.torn = false) :
    (∀ history : List Incident,
      let d := Drill.after settings history
      let l := Ledger.run settings d.calls
      (l.cluster = d.shared.store ∧ l.writes = d.moves ∧
        ∀ r ∈ d.shared.store.replicas, ∃ earlier, earlier <+: l.changes ∧ r.accounts = tableOf earlier) ∧
      (∀ before i task, Drill.Aborts settings history before i task →
        d.rounds.filter (·.runner == i) = (Drill.after settings before).rounds.filter (·.runner == i) ∧
        ∀ id, task.id? = some id → task.prepared? = none →
          ∀ r ∈ d.shared.store.replicas, r.up = true → id ∉ r.prepared) ∧
      ∀ (node : Nat) (r : Replica), d.shared.store.replicas[node]? = some r → r.up = true →
        ∀ id ∈ r.prepared, id.node = node ∧ id.epoch = r.epoch ∧
          ((∃ runner ∈ d.runners, ∃ task, runner.task = some task ∧ task.prepared? = some id) ∨
            ∃ before i task, Drill.Aborts settings history before i task ∧ task.prepared? = some id)) ∧
    ∀ (c : Client Cluster Session Waiting) (w : Worker), Used settings c → c.worker = some w →
      (∀ flight ∈ (w.deadline c.workplace).flights, flight.2.task.prepared? = none) →
        ∀ timings count, (Suite.teardown controls timings c).1 ≠ .ok (.error (.preparedLeft count)) := by
  refine ⟨fun history => ?_, fun c w used worker early timings count reported => ?_⟩
  · intro d l
    have applied : d.Applied settings := Drill.applied_after plain history
    have owned := Drill.owned_after settings history
    refine ⟨⟨applied.cluster, applied.writes, fun r member => ?_⟩, fun before i task aborts => ⟨?_, ?_⟩, ?_⟩
    · obtain ⟨node, found⟩ := List.mem_iff_getElem?.mp member
      rw [← applied.cluster] at found
      exact (Ledger.faithful_run settings d.calls).past node r found
    · obtain ⟨rest, same, waits⟩ := aborts
      have run := (Drill.ended_abort waits).run rest
      have split : d = rest.foldl Drill.undergo ((Drill.after settings before).step (.abort i)) := by
        change Drill.after settings history = _
        rw [same, Drill.after, List.foldl_append]
        rfl
      exact split ▸ run.rounds
    · exact fun id carries early r member up => aborts.forgets carries early member up
    · exact fun node r found up => (owned node r found up).2
  · obtain ⟨report, c₁, -, -, stopped, -⟩ := Suite.teardown_preparedLeft reported
    obtain ⟨quiet, owns⟩ := used.owns_stop worker early stopped
    exact not_preparedLeft quiet owns stopped timings count reported

def launchedAt (settings : Cluster.Settings) : Client Cluster Session Waiting :=
  (Client.launch
    { config := { accounts := 4 }
      workplace.shared.store := (Cluster.execute (.new settings) { node := 0, epoch := 0 } (.create 4)).store }).2

theorem used_launchedAt (settings : Cluster.Settings) : Used settings (launchedAt settings) := by
  have begun : Used settings { config := { accounts := 4 }, workplace := { shared := { store := .new settings } } } :=
    .start _ rfl ⟨rfl, rfl⟩
  exact (begun.tell { node := 0, epoch := 0 } (.create 4)).launch

def onTheWay : List Incident :=
  [.statement { node := 0, epoch := 0 } (.create 4), .event (.launch 0 (.transfer 4 7) ⟨.zero, .zero⟩),
    .event (.launch 1 (.transfer 4 9) ⟨.zero, .zero⟩)] ++
  List.replicate 5 (.event (.wake 0 false 0 0)) ++ List.replicate 6 (.event (.wake 1 false 1 0))

/-- The loop that was aborted writes nothing, the other one goes on; and two loops are aborted on their first way
to a slow node. -/
theorem aborts_of_onTheWay :
    let history := onTheWay ++ .event (.abort 0) :: List.replicate 2 (.event (.wake 1 false 1 0))
    let d := Drill.after {} history
    let slow := launchedAt { nodes := 1, minDelay := 10000, maxDelay := 10000 }
    (∃ task id, Drill.Aborts {} history onTheWay 0 task ∧ task.id? = some id ∧
      ∀ r ∈ d.shared.store.replicas, r.up = true → id ∉ r.prepared) ∧
    d.rounds.filter (·.runner == 0) = [] ∧ d.moves = [moveWrites 2 9] ∧
    (Client.stop slow).1 = .ok ⟨2, 0, 2⟩ ∧
    ∀ count, (Suite.teardown controls {} slow).1 ≠ .ok (.error (.preparedLeft count)) := by
  intro history d slow
  have waits : ((Drill.after {} onTheWay).runners[0]?.bind (·.task)).bind Task.id? = some ⟨0, 1, 0⟩ := by
    decide +kernel
  have early : ((Drill.after {} onTheWay).runners[0]?.bind (·.task)).bind Task.prepared? = none := by decide +kernel
  obtain ⟨task, waiting, carries⟩ := Option.bind_eq_some_iff.mp waits
  rw [waiting, Option.bind_some] at early
  have aborts : Drill.Aborts {} history onTheWay 0 task := ⟨_, rfl, waiting⟩
  obtain ⟨-, aborted, -⟩ := (aborts_leave_only_prepared {} rfl).1 history
  obtain ⟨rounds, forgotten⟩ := aborted onTheWay 0 task aborts
  have before : (Drill.after {} onTheWay).rounds.filter (·.runner == 0) = [] :=
    List.eq_nil_of_length_eq_zero (by decide +kernel)
  refine ⟨⟨task, _, aborts, carries, forgotten _ carries early⟩, rounds.trans before, by decide +kernel,
    by decide +kernel, ?_⟩
  have late : (slow.worker.map fun w => (w.deadline slow.workplace).flights.all fun flight =>
      flight.2.task.prepared? == none) = some true := by decide +kernel
  obtain ⟨w, worker, all⟩ := Option.map_eq_some_iff.mp late
  refine (aborts_leave_only_prepared _ rfl).2 slow w (used_launchedAt _) worker (fun flight flown => ?_) {}
  exact eq_of_beq (List.all_eq_true.mp all flight flown)

def halfCommit : List Incident :=
  .statement { node := 0, epoch := 0 } (.create 3) ::
    .event (.launch 0 (.transfer 3 1) ⟨.ofMillis 10, .ofSeconds 1⟩) ::
      List.replicate 5 (.event (.wake 0 false 0 0))

def lateCommits : Cluster.Settings :=
  { nodes := 1, minDelay := 0, maxDelay := 0, connectDelay := 0, commitDelay := 100 }

/-- An abort between the phases leaves the transaction prepared, and a forced end of a workload can do so. -/
theorem prepared_after_abort :
    lateCommits.torn = false ∧
    (∃ task id, Drill.Aborts lateCommits (halfCommit ++ [.event (.abort 0)]) halfCommit 0 task ∧
      task.id? = some id ∧ ∃ r ∈ (Drill.after lateCommits (halfCommit ++ [.event (.abort 0)])).shared.store.replicas,
        r.up = true ∧ id ∈ r.prepared) ∧
    Used { nodes := 1, commitDelay := 10000 } (launchedAt { nodes := 1, commitDelay := 10000 }) ∧
    (Suite.teardown controls {} (launchedAt { nodes := 1, commitDelay := 10000 })).1 =
      .ok (.error (.preparedLeft 1)) := by
  have waits : ((Drill.after lateCommits halfCommit).runners[0]?.bind (·.task)).bind Task.id? = some ⟨0, 1, 0⟩ := by
    decide +kernel
  obtain ⟨task, waiting, carries⟩ := Option.bind_eq_some_iff.mp waits
  refine ⟨rfl, ⟨task, ⟨0, 1, 0⟩, ⟨[], rfl, waiting⟩, carries, by decide +kernel⟩, used_launchedAt _, by decide +kernel⟩

end Client

end LedgerDrill
