import LedgerDrill.Proofs.Control.Replies
import LedgerDrill.Proofs.Experiment.Quiet
import LedgerDrill.Proofs.Experiment.Standard
import LedgerDrill.Proofs.Workload.Steps

namespace LedgerDrill
open Control Outcome Workload

/-! ## Experiments case by case -/

section

variable {τ α β : Type} {controls : Controls τ} {timings : Timings} {injector : Injector τ} {w : τ}

theorem Action.of_eq (f : τ → τ × Except RunError α) (w : τ) : Action.of f w = ((f w).2, (f w).1) := rfl

theorem Controls.pause_eq (controls : Controls τ) (length : Duration) (w : τ) :
    controls.pause length w = (.ok (), controls.rest length w) := rfl

theorem experiment_eq (controls : Controls τ) (timings : Timings) (injector : Injector τ) (w : τ) :
    experiment controls timings injector w =
      match injector.start (controls.rest timings.warming w) with
      | (broken, .error e) => (.error e, broken)
      | (broken, .ok ()) =>
        match controls.window timings.duration broken with
        | (.error e, failing) => (.error e, failing)
        | (.ok during, failing) =>
          match injector.stop failing with
          | (mended, .error e) => (.error e, mended)
          | (mended, .ok ()) =>
            ((controls.window timings.recovery mended).1.map fun after => ⟨during, after⟩,
              (controls.window timings.recovery mended).2) := by
  simp only [experiment, Action.bind_eq, Controls.pause_eq, Action.of_eq]
  -- One step of the experiment at a time; a step that fails ends it.
  rcases injector.start (controls.rest timings.warming w) with ⟨broken, e | ⟨⟩⟩
  · rfl
  simp only
  rcases controls.window timings.duration broken with ⟨e | during, failing⟩
  · rfl
  simp only
  rcases injector.stop failing with ⟨mended, e | ⟨⟩⟩
  · rfl
  simp only
  rcases controls.window timings.recovery mended with ⟨e | after, last⟩ <;> rfl

/-! ## Calls of a failure -/

inductive Half
  | start
  | stop
deriving DecidableEq

structure Watched (τ : Type) where
  world : τ
  calls : List Half := []

def Action.watched (x : Action τ α) : Action (Watched τ) α := fun w =>
  ((x w.world).1, { w with world := (x w.world).2 })

def Controls.watched (controls : Controls τ) : Controls (Watched τ) where
  rest length w := { w with world := controls.rest length w.world }
  collect := controls.collect.watched
  stop := controls.stop.watched
  isIdentical := controls.isIdentical.watched
  prepared := controls.prepared.watched

/-- Notes each call, whether it succeeds or not. -/
def Injector.watched (injector : Injector τ) : Injector (Watched τ) where
  name := injector.name
  unreachable := injector.unreachable
  start w := (⟨(injector.start w.world).1, w.calls ++ [.start]⟩, (injector.start w.world).2)
  stop w := (⟨(injector.stop w.world).1, w.calls ++ [.stop]⟩, (injector.stop w.world).2)

theorem Controls.window_watched (controls : Controls τ) (length : Duration) (w : Watched τ) :
    controls.watched.window length w =
      ((controls.window length w.world).1, ⟨(controls.window length w.world).2, w.calls⟩) := by
  simp only [Controls.window, Action.bind_eq, Controls.pause_eq, Controls.watched, Action.watched]
  cases controls.collect w.world with
  | mk result w₁ => cases result <;> rfl

theorem experiment_watched (controls : Controls τ) (timings : Timings) (injector : Injector τ) (w : τ) :
    let run := experiment controls timings injector w
    let started := injector.start (controls.rest timings.warming w)
    let failed := !started.2.isOk || !(controls.window timings.duration started.1).1.isOk
    experiment controls.watched timings injector.watched ⟨w, []⟩ =
      (run.1, ⟨run.2, if failed then [.start] else [.start, .stop]⟩) := by
  simp only [experiment_eq, Controls.window_watched]
  simp only [Injector.watched, Controls.watched]
  rcases injector.start (controls.rest timings.warming w) with ⟨broken, e | ⟨⟩⟩
  · rfl
  simp only
  rcases controls.window timings.duration broken with ⟨e | during, failing⟩
  · rfl
  simp only
  rcases injector.stop failing with ⟨mended, e | ⟨⟩⟩ <;> rfl

end

/-! ## Scenarios on a cluster -/

namespace Cluster

variable {c : Cluster} {scenario : Scenario}

theorem inject_cases (fault : Fault) (c : Cluster) :
    (∃ e, inject fault c = (c, .error e)) ∨
      (∀ node ∈ faultNodes fault, node < c.size) ∧ inject fault c = (c.applyFault fault, .ok ()) := by
  by_cases known : ∀ node ∈ faultNodes fault, node < c.size
  · exact Or.inr ⟨known, inject_eq known⟩
  · refine Or.inl ?_
    unfold inject
    split
    · exact ⟨_, rfl⟩
    · next none =>
        refine absurd (fun node member => ?_) known
        simpa using List.find?_eq_none.mp none node member

theorem startFault_cases (scenario : Scenario) (c : Cluster) :
    (∃ e, Scenario.inject scenario.startFault? c = (c, .error e)) ∨
      (∀ node ∈ scenario.nodes, node < c.size) ∧ (Scenario.inject scenario.startFault? c).2 = .ok () := by
  have injected (fault : Fault) : (∃ e, inject fault c = (c, .error e)) ∨
      (∀ node ∈ faultNodes fault, node < c.size) ∧ (inject fault c).2 = .ok () :=
    (inject_cases fault c).imp_right (And.imp_right (congrArg Prod.snd))
  cases scenario with
  | baseline => exact Or.inr ⟨fun _ => nofun, rfl⟩
  | partition node => exact injected (.isolate node)
  | edge a b => exact injected (.cut a b)
  | restart node => exact injected (.shutdown node)
  | crash node => exact injected (.crash node)

theorem obeys_alike : Store.Obeys Session Waiting Alike where
  refl := Alike.refl
  trans := Alike.trans
  dial c _ := Alike.refl c
  accept c _ := Alike.refl c
  start statement c s := (settled_start statement c s).alike
  resume w c s := (settled_resume w c s).alike

end Cluster

namespace Client
open Cluster (Session Waiting Alike Whole)

variable {c : Client Cluster Session Waiting} {length : Duration} {scenario : Scenario}

theorem alike_rest (length : Duration) (c : Client Cluster Session Waiting) :
    Alike c.store (controls.rest length c).store :=
  Cluster.obeys_alike.pause c.workplace (.pause length)

theorem collect_eq (c : Client Cluster Session Waiting) : controls.collect c = withWorker Worker.requestStatus c := rfl

theorem store_collect (c : Client Cluster Session Waiting) : (controls.collect c).2.store = c.store := by
  rw [collect_eq]
  unfold withWorker
  split <;> rfl

theorem alike_window (length : Duration) (c : Client Cluster Session Waiting) :
    Alike c.store (controls.window length c).2.store := by
  have collected := store_collect c
  simp only [Controls.window, Action.bind_eq, Controls.pause_eq]
  cases result : controls.collect c with
  | mk cleared c₁ =>
      rw [result] at collected
      cases cleared with
      | error e => exact collected ▸ Alike.refl _
      | ok snapshot =>
          simp only [store_collect]
          exact collected ▸ alike_rest length c₁

theorem inject_store (fault : Option Fault) (c : Client Cluster Session Waiting) :
    (Scenario.inject fault c).1.store = (Scenario.inject fault c.store).1 ∧
      (Scenario.inject fault c).2 = (Scenario.inject fault c.store).2 := by
  cases fault <;> exact ⟨rfl, rfl⟩

theorem whole_after_window {broken failing : Client Cluster Session Waiting} {during : Snapshot} {timings : Timings}
    (whole : c.store.Whole) (known : ∀ node ∈ scenario.nodes, node < c.store.size)
    (started : Alike (Scenario.inject scenario.startFault? c.store).1 broken.store)
    (first : controls.window timings.duration broken = (.ok during, failing)) :
    (Scenario.inject scenario.stopFault? failing).1.store.Whole ∧
      (controls.window timings.recovery (Scenario.inject scenario.stopFault? failing).1).2.store.Whole := by
  have alike := alike_window timings.duration broken
  rw [first] at alike
  have mended : (Scenario.inject scenario.stopFault? failing).1.store.Whole :=
    (inject_store scenario.stopFault? failing).1 ▸ whole.mended known (started.trans alike)
  exact ⟨mended, mended.alike (alike_window timings.recovery _)⟩

theorem whole_after (whole : c.store.Whole) (timings : Timings) (scenario : Scenario) :
    let run := experiment controls timings scenario.injector c
    run.2.store.Whole ∨ ∃ broken e failing,
      scenario.injector.start (controls.rest timings.warming c) = (broken, .ok ()) ∧
      controls.window timings.duration broken = (.error e, failing) ∧ run = (.error e, failing) := by
  have warm := whole.alike (alike_rest timings.warming c)
  have begun := inject_store scenario.startFault? (controls.rest timings.warming c)
  have start : scenario.injector.start (controls.rest timings.warming c) =
      Scenario.inject scenario.startFault? (controls.rest timings.warming c) := rfl
  rw [experiment_eq, start]
  generalize controls.rest timings.warming c = c₁ at warm begun
  cases started : Scenario.inject scenario.startFault? c₁ with
  | mk broken result =>
      rw [started] at begun
      rcases Cluster.startFault_cases scenario c₁.store with ⟨e, refused⟩ | ⟨known, accepted⟩
      · rw [refused] at begun
        obtain ⟨same, rfl⟩ := begun
        exact Or.inl (same ▸ warm)
      · rw [accepted] at begun
        obtain ⟨same, rfl⟩ := begun
        cases first : controls.window timings.duration broken with
        | mk during failing =>
            cases during with
            | error e =>
                simp only [first]
                exact Or.inr ⟨broken, e, failing, rfl, first, rfl⟩
            | ok during =>
                obtain ⟨mended, last⟩ := whole_after_window warm known (same ▸ Alike.refl _) first
                -- The nodes of the scenario exist, since it began: what it broke is mended.
                refine Or.inl ?_
                have stop : scenario.injector.stop failing = Scenario.inject scenario.stopFault? failing := rfl
                simp only [first, stop]
                cases stopped : Scenario.inject scenario.stopFault? failing with
                | mk after result =>
                    rw [stopped] at mended last
                    cases result with
                    | error e => exact mended
                    | ok => exact last

/-! ## With a worker and without -/

theorem store_rest (none : c.workplace.flights = []) (length : Duration) : (controls.rest length c).store = c.store :=
  congrArg Shared.store (Timeline.pause_of_no_flights none (.pause length)).1

theorem window_without_worker (none : c.worker = none) (length : Duration) :
    controls.window length c = (.error .notRunning, c) := by
  have refused : controls.collect c = (.error .notRunning, c) := by
    rw [collect_eq, withWorker, none]
  simp only [Controls.window, Action.bind_eq, refused]

structure Attended (c : Client Cluster Session Waiting) : Prop where
  worker : ∃ w, c.worker = some w ∧ w.channel.Ready
  registry : c.workplace.shared.registry = {}
  flights : c.workplace.flights = []

theorem Attended.collect (attended : c.Attended) : controls.collect c = (.ok {}, c) := by
  obtain ⟨config, ⟨⟨store, registry⟩, now, grain, dice, flights, landed⟩, worker⟩ := c
  obtain ⟨⟨w, worker, ready⟩, registry, -⟩ := attended
  cases worker
  cases registry
  rw [collect_eq]
  simp only [withWorker, Worker.requestStatus, Worker.call, ready.requestStatus]
  rfl

theorem Attended.rest (attended : c.Attended) (length : Duration) : (controls.rest length c).Attended := by
  obtain ⟨shared, flights, -⟩ := Timeline.pause_of_no_flights attended.flights (.pause length)
  exact ⟨attended.worker, (congrArg Shared.registry shared).trans attended.registry, flights⟩

theorem Attended.window (attended : c.Attended) (length : Duration) :
    controls.window length c = (.ok {}, controls.rest length c) := by
  simp only [Controls.window, Action.bind_eq, Controls.pause_eq, attended.collect, (attended.rest length).collect]

theorem start_crash (c : Client Cluster Session Waiting) {node : Nat} (bound : node < c.store.size) :
    ∃ broken, (Scenario.crash node).injector.start c = (broken, .ok ()) ∧ broken.store.holds node (·.up) = false ∧
      broken.worker = c.worker ∧ (c.Attended → broken.Attended) := by
  have injected : Cluster.inject (.crash node) c.store = (c.store.applyFault (.crash node), .ok ()) :=
    Cluster.inject_eq fun other member => List.mem_singleton.mp member ▸ bound
  refine ⟨{ c with workplace.shared.store := c.store.stopNode node true }, ?_,
    Cluster.down_stopNode c.store node true, rfl,
    fun attended => ⟨attended.worker, attended.registry, attended.flights⟩⟩
  change FaultTarget.inject (.crash node) c = _
  simp only [FaultTarget.inject, injected]
  rfl

def atNew (worker : Option Worker) : Client Cluster Session Waiting :=
  { config := {}, workplace := { shared := { store := .new {} } }, worker }

/-- An experiment whose failure has begun has ended it, whatever comes back, unless a call to the worker failed in
its window; and then nothing is broken any more on a cluster where nothing was broken before. -/
theorem failure_ends_unless_window_fails {τ : Type} (controls : Controls τ) (timings : Timings)
    (injector : Injector τ) (w broken : τ) :
    (injector.start (controls.rest timings.warming w) = (broken, .ok ()) →
      let watched := experiment controls.watched timings injector.watched ⟨w, []⟩
      let run := experiment controls timings injector w
      (watched.1, watched.2.world) = run ∧
      (watched.2.calls = [.start, .stop] ∨ ∃ e failing,
        controls.window timings.duration broken = (.error e, failing) ∧ run = (.error e, failing))) ∧
    ∀ (c : Client Cluster Session Waiting) (scenario : Scenario), c.store.Whole →
      let run := experiment Client.controls timings scenario.injector c
      run.2.store.Whole ∨ ∃ broken e failing,
        scenario.injector.start (Client.controls.rest timings.warming c) = (broken, .ok ()) ∧
        Client.controls.window timings.duration broken = (.error e, failing) ∧ run = (.error e, failing) := by
  refine ⟨fun started => ?_, fun c scenario whole => whole_after whole timings scenario⟩
  intro watched run
  have same : watched = _ := experiment_watched controls timings injector w
  rw [same]
  refine ⟨rfl, ?_⟩
  cases first : controls.window timings.duration broken with
  | mk during failing =>
      simp only [started, first]
      cases during with
      | ok during => exact Or.inl rfl
      | error e =>
          refine Or.inr ⟨e, failing, rfl, ?_⟩
          simp only [run, experiment_eq, started, first]

theorem crash_ends_with_worker :
    let c := atNew (some { channel := Channel.serve {}, phase := .working, grace := .zero })
    let run := experiment controls {} (Scenario.crash 2).injector c
    (experiment controls.watched {} (Scenario.crash 2).injector.watched ⟨c, []⟩).2.calls = [.start, .stop] ∧
    run.2.store.Whole ∧ ∃ broken,
      (Scenario.crash 2).injector.start (controls.rest (.ofSeconds 5) c) = (broken, .ok ()) ∧
        broken.store.holds 2 (·.up) = false := by
  intro c run
  have attended : c.Attended := ⟨⟨_, rfl, ⟨rfl, rfl, rfl, rfl⟩⟩, rfl, rfl⟩
  have store : (controls.rest (.ofSeconds 5) c).store = .new {} := store_rest rfl _
  have bound : 2 < (controls.rest (.ofSeconds 5) c).store.size := by rw [store]; decide
  obtain ⟨broken, started, isDown, -, served⟩ := start_crash _ bound
  have first := (served (attended.rest _)).window (.ofSeconds 10)
  obtain ⟨balanced, mended⟩ := failure_ends_unless_window_fails controls {} (Scenario.crash 2).injector c broken
  refine ⟨?_, ?_, broken, started, isDown⟩
  · obtain ⟨-, stopped | ⟨e, failing, failed, -⟩⟩ := balanced started
    · exact stopped
    · cases first.symm.trans failed
  · rcases mended c (.crash 2) (Cluster.whole_new {}) with whole | ⟨_, e, failing, started', failed, -⟩
    · exact whole
    · cases started.symm.trans started'
      cases first.symm.trans failed

theorem crash_stays_without_worker :
    let c := atNew none
    let run := experiment controls {} (Scenario.crash 2).injector c
    c.store.Whole ∧ (∃ broken, (Scenario.crash 2).injector.start (controls.rest (.ofSeconds 5) c) = (broken, .ok ())) ∧
    (experiment controls.watched {} (Scenario.crash 2).injector.watched ⟨c, []⟩).2.calls = [.start] ∧
    run.1 = .error .notRunning ∧ run.2.store.holds 2 (·.up) = false := by
  intro c run
  have store : (controls.rest (.ofSeconds 5) c).store = .new {} := store_rest rfl _
  have bound : 2 < (controls.rest (.ofSeconds 5) c).store.size := by rw [store]; decide
  obtain ⟨broken, started, isDown, worker, -⟩ := start_crash _ bound
  have first : controls.window (.ofSeconds 10) broken = (.error .notRunning, broken) :=
    window_without_worker worker _
  have ended : run = (.error .notRunning, broken) := by
    simp only [run, experiment_eq, started, first]
  refine ⟨Cluster.whole_new {}, ⟨broken, started⟩, ?_, congrArg Prod.fst ended, ?_⟩
  · rw [experiment_watched, started]
    simp only [first]
    rfl
  · rw [ended]
    exact isDown

end Client

end LedgerDrill
