import LedgerDrill.Proofs.Experiment.Hosting
import LedgerDrill.Proofs.Retry

namespace LedgerDrill
open Cluster (Session Waiting)

namespace Worker
open Timeline

variable {config : Config} {p p' : Workplace Cluster Session Waiting} {w w' : Worker}
variable {settings : Cluster.Settings}

theorem lodges_launch (lodges : p.Lodges settings) {loop : Workload.Loop Session} (fresh : loop.session = none) :
    (Worker.launch p loop).Lodges settings := by
  obtain ⟨node, body, loopSettings, session⟩ := loop
  cases fresh
  exact lodges.launchRun (some _) node body loopSettings

theorem lodges_spawn (lodges : p.Lodges settings) (quiet : p.Quiet)
    (spawned : Worker.spawn config p = .ok (w, p')) : p'.Lodges settings := by
  obtain ⟨-, rfl⟩ := spawn_ok spawned rfl
  have fresh : ∀ loop ∈ loops Cluster config p.shared.store, loop.session = none := by
    intro loop member
    obtain ⟨node, -, placed⟩ := List.mem_flatMap.mp member
    obtain ⟨body, -, rfl⟩ := List.mem_map.mp placed
    rfl
  have emptied : Lodges settings { p with shared.registry := {}, flights := [], landed := [] } :=
    lodges.congr rfl quiet.flights.symm
  exact List.foldlRecOn _ launch emptied fun p lodges loop member => lodges_launch lodges (fresh loop member)

def deadline (w : Worker) (p : Workplace Cluster Session Waiting) : Workplace Cluster Session Waiting :=
  let p := (p.flights.map (·.1)).foldl (fun p name => p.setFlag name false) p
  p.advance (p.now + w.grace.nanos)

theorem lodges_deadline (lodges : p.Lodges settings) (w : Worker) : (w.deadline p).Lodges settings :=
  (stable_lodges settings).advance lodges.lower _

theorem stop_cases {report : WorkerReport} (stopped : Worker.stop w p = (w', p', .ok report)) :
    (w.isRunning = true ∧ p' = { w.deadline p with flights := [], landed := [] } ∧
      report.aborted = (w.deadline p).flights.length) ∨ (w.isRunning = false ∧ p' = p) := by
  cases running : w.isRunning with
  | true =>
      simp only [Worker.stop, finish, running, Bool.not_true, Bool.false_eq_true, if_false] at stopped
      cases stopped
      exact Or.inl ⟨rfl, rfl, rfl⟩
  | false =>
      have same : w.finish p = (w, p) := by simp [finish, running]
      have kept : (Worker.stop w p).2.1 = p := by
        simp only [Worker.stop, same]
        split <;> rfl
      rw [stopped] at kept
      exact Or.inr ⟨rfl, kept⟩

end Worker

namespace Client
open Timeline

variable {settings : Cluster.Settings} {c c' : Client Cluster Session Waiting} {statement : Statement}

/-- A client on a new cluster, after anything that it may do without aborting a loop. It may ask its nodes by
the clock, or anyone may ask while its statements wait; faults may come and loops may take their steps in any
order and at any time, also while their flags are down. -/
inductive Used (settings : Cluster.Settings) : Client Cluster Session Waiting → Prop
  | start (config : Config) {p : Workplace Cluster Session Waiting} (fresh : p.shared.store = .new settings)
      (quiet : p.Quiet) : Used settings { config, workplace := p }
  | ask {c : Client Cluster Session Waiting} {statement : Statement} (before : Used settings c)
      (own : statement.isOwn = true) (node : Nat) :
      Used settings { c with workplace := (Client.ask c.workplace node statement).1 }
  | tell {c : Client Cluster Session Waiting} (before : Used settings c) (s : Session) (statement : Statement) :
      Used settings { c with workplace.shared.store := (Cluster.execute c.store s statement).store }
  | launch {c : Client Cluster Session Waiting} (before : Used settings c) : Used settings (Client.launch c).2
  | collect {c : Client Cluster Session Waiting} (before : Used settings c) : Used settings (Client.collect c).2
  | rest {c : Client Cluster Session Waiting} (before : Used settings c) (length : Duration) :
      Used settings (controls.rest length c)
  | stop {c c' : Client Cluster Session Waiting} {report : WorkerReport} (before : Used settings c)
      (stopped : Client.stop c = (.ok report, c')) (gentle : report.aborted = 0) : Used settings c'
  | fault {c : Client Cluster Session Waiting} (before : Used settings c) (fault : Fault) :
      Used settings (FaultTarget.inject fault c).1
  | wake {c : Client Cluster Session Waiting} {name : Worker.Name} {flight : Flight Session Waiting}
      {others : List (Worker.Name × Flight Session Waiting)} (before : Used settings c)
      (found : c.workplace.flights.Perm ((name, flight) :: others)) (expired : Bool) :
      Used settings { c with workplace := c.workplace.wake name { flight with expired } others }
  | reschedule {c : Client Cluster Session Waiting} (before : Used settings c) (now grain : Nat) (dice : Dice) :
      Used settings { c with workplace := { c.workplace with now, grain, dice } }
  | lower {c : Client Cluster Session Waiting} (before : Used settings c) :
      Used settings { c with workplace :=
        (c.workplace.flights.map (·.1)).foldl (fun p name => p.setFlag name false) c.workplace }

structure Lodged (settings : Cluster.Settings) (c : Client Cluster Session Waiting) : Prop where
  lodges : c.workplace.Lodges settings
  quiet : c.isRunning = false → c.workplace.Quiet

theorem Lodged.ask (lodged : c.Lodged settings) (own : statement.isOwn = true) (node : Nat) :
    Lodged settings { c with workplace := (Client.ask c.workplace node statement).1 } := by
  refine ⟨lodges_ask lodged.lodges own node, fun idle => ?_⟩
  cases accepted : (Store.accept c.store node).2 with
  | error e =>
      obtain ⟨p, asked, quiet, -⟩ := (lodged.quiet idle).refused statement accepted
      exact asked ▸ quiet
  | ok s =>
      obtain ⟨c', s', answer, executed⟩ := Cluster.execute_own own c.store s
      obtain ⟨p, asked, quiet, -⟩ := (lodged.quiet idle).ask own accepted executed
      exact asked ▸ quiet

theorem launch_eq (c : Client Cluster Session Waiting) : Client.launch c =
    if c.worker.isSome then (.error .alreadyRunning, c)
    else match Worker.spawn c.config c.workplace with
      | .error e => (.error e, c)
      | .ok (worker, workplace) => (.ok (), { c with worker := some worker, workplace }) := by
  have got : (get : Action (Client Cluster Session Waiting) _) c = (.ok c, c) := rfl
  have lifted : (liftM (Worker.spawn c.config c.workplace) : Action (Client Cluster Session Waiting) _) c =
      (Worker.spawn c.config c.workplace, c) := rfl
  unfold Client.launch
  rw [Action.bind_eq, got]
  simp only
  split
  · rfl
  · rw [Action.bind_eq, lifted]
    cases Worker.spawn c.config c.workplace with
    | error e => rfl
    | ok spawned => rfl

theorem Lodged.launch (lodged : c.Lodged settings) : (Client.launch c).2.Lodged settings := by
  rw [launch_eq]
  split
  · exact lodged
  · next absent =>
      have idle : c.isRunning = false := by
        cases worker : c.worker with
        | none => simp [isRunning, worker]
        | some w => simp [worker] at absent
      split
      · exact lodged
      · next w p spawned =>
          refine ⟨Worker.lodges_spawn lodged.lodges (lodged.quiet idle) spawned, fun idle' => ?_⟩
          have running : w.isRunning = false := idle'
          rw [(Worker.spawn_ok spawned rfl).1] at running
          cases running

theorem Lodged.collect (lodged : c.Lodged settings) : (Client.collect c).2.Lodged settings := by
  unfold Client.collect withWorker
  cases worker : c.worker with
  | none => exact lodged
  | some w =>
      refine ⟨lodged.lodges.congr rfl rfl, fun idle => ?_⟩
      have before : c.isRunning = false := by
        rw [isRunning, worker]
        exact idle
      exact ⟨(lodged.quiet before).flights, (lodged.quiet before).landed⟩

theorem stop_ok {report : WorkerReport} (stopped : Client.stop c = (.ok report, c')) :
    ∃ w w', c.worker = some w ∧ c'.worker = none ∧ Worker.stop w c.workplace = (w', c'.workplace, .ok report) := by
  cases worker : c.worker with
  | none =>
      simp only [Client.stop, withWorker, worker] at stopped
      cases stopped
  | some w =>
      simp only [Client.stop, withWorker, worker] at stopped
      cases ended : Worker.stop w c.workplace with
      | mk w' ended' =>
          obtain ⟨p, result⟩ := ended'
          rw [ended] at stopped
          cases stopped
          exact ⟨w, w', rfl, rfl, ended⟩

theorem Lodged.stop (lodged : c.Lodged settings) {report : WorkerReport}
    (stopped : Client.stop c = (.ok report, c')) (gentle : report.aborted = 0) :
    c'.Lodged settings ∧ c'.workplace.Quiet := by
  obtain ⟨w, w', worker, -, ended⟩ := stop_ok stopped
  rcases Worker.stop_cases ended with ⟨-, same, aborted⟩ | ⟨idle, same⟩
  · rw [gentle] at aborted
    have quiet : c'.workplace.Quiet := by
      rw [same]
      exact ⟨rfl, rfl⟩
    refine ⟨⟨?_, fun _ => quiet⟩, quiet⟩
    rw [same]
    exact (Worker.lodges_deadline lodged.lodges w).congr rfl (List.length_eq_zero_iff.mp aborted.symm).symm
  · have quiet : c'.workplace.Quiet := by
      rw [same]
      exact lodged.quiet (by rw [isRunning, worker]; exact idle)
    exact ⟨⟨same ▸ lodged.lodges, fun _ => quiet⟩, quiet⟩

theorem Used.lodged (used : Used settings c) : c.Lodged settings := by
  induction used with
  | start config fresh quiet =>
      exact ⟨lodges_new fresh quiet.flights, fun _ => quiet⟩
  | ask before own node ih => exact ih.ask own node
  | tell before s statement ih =>
      exact ⟨ih.lodges.tell s statement, fun idle => ⟨(ih.quiet idle).flights, (ih.quiet idle).landed⟩⟩
  | launch before ih => exact ih.launch
  | collect before ih => exact ih.collect
  | rest before length ih => exact ⟨(stable_lodges settings).pause ih.lodges _, fun idle => ((ih.quiet idle).pause _).1⟩
  | stop before stopped gentle ih => exact (ih.stop stopped gentle).1
  | fault before fault ih =>
      exact ⟨ih.lodges.fault fault, fun idle => ⟨(ih.quiet idle).flights, (ih.quiet idle).landed⟩⟩
  | wake before found expired ih =>
      refine ⟨ih.lodges.wake found expired, fun idle => ?_⟩
      rw [(ih.quiet idle).flights] at found
      cases List.nil_perm.mp found
  | reschedule before now grain dice ih =>
      exact ⟨ih.lodges.congr rfl rfl, fun idle => ⟨(ih.quiet idle).flights, (ih.quiet idle).landed⟩⟩
  | lower before ih =>
      refine ⟨ih.lodges.lower, fun idle => ?_⟩
      rw [(ih.quiet idle).flights]
      exact ih.quiet idle

theorem used_new {config : Config} {p p' : Workplace Cluster Session Waiting}
    (fresh : p.shared.store = .new settings) (quiet : p.Quiet) (made : Client.new config p = (p', .ok c)) :
    Used settings c := by
  have begun : Used settings { config, workplace := p } := .start config fresh quiet
  have setUp : Used settings { config, workplace := (Client.setUp config p).1 } :=
    Retry.keepTrying_induction (P := fun p => Used settings { config, workplace := p }) begun
      (fun _ used => used.ask rfl 0) (fun _ used => used.rest config.setupDelay) _ _
  have same : c = { config, workplace := (Client.setUp config p).1 } := by
    unfold Client.new at made
    split at made
    · cases made
    · split at made
      · cases made
      · cases told : (Client.setUp config p).2 with
        | error e =>
            simp only [told] at made
            cases made
        | ok reply =>
            simp only [told] at made
            cases made
            rfl
  exact same ▸ setUp

theorem used_askAll (used : Used settings c) (own : statement.isOwn = true) (context : String) (nodes : List Nat) :
    Used settings (askAll statement context nodes c).2 := by
  induction nodes generalizing c with
  | nil => exact used
  | cons node rest ih =>
      have asked := used.ask own node
      cases answered : Client.ask c.workplace node statement with
      | mk p answer =>
          rw [answered] at asked
          rw [askAll_cons answered]
          cases answer with
          | error e => exact asked
          | ok reply =>
              have later := ih asked
              simp only
              split <;>
                · next same =>
                    rw [same] at later
                    exact later

end Client

end LedgerDrill
