import LedgerDrill.Cluster.Faults
import LedgerDrill.Cluster.Session
import LedgerDrill.Proofs.Experiment.Site

namespace LedgerDrill
open Control Outcome Workload

/-! ## Experiments step by step -/

section

variable {τ α β : Type}

theorem Action.bind_eq (x : Action τ α) (f : α → Action τ β) (w : τ) :
    (x >>= f) w = match x w with
      | (.ok a, w₁) => f a w₁
      | (.error e, w₁) => (.error e, w₁) := by
  change ExceptT.bindCont f (x w).1 (x w).2 = _
  cases x w with
  | mk result w₁ => cases result <;> rfl

theorem Action.bind_ok {x : Action τ α} {f : α → Action τ β} {w w' : τ} {b : β}
    (done : (x >>= f) w = (.ok b, w')) : ∃ a w₁, x w = (.ok a, w₁) ∧ f a w₁ = (.ok b, w') := by
  rw [bind_eq] at done
  cases first : x w with
  | mk result w₁ =>
      rw [first] at done
      cases result with
      | error e => cases done
      | ok a => exact ⟨a, w₁, rfl, done⟩

theorem Action.of_ok {f : τ → τ × Except RunError α} {w w' : τ} {a : α}
    (done : Action.of f w = (.ok a, w')) : f w = (w', .ok a) := by
  cases acted : f w with
  | mk w₁ result =>
      have next : Action.of f w = (result, w₁) := by rw [Action.of, acted]
      rw [next] at done
      cases done
      rfl

variable {controls : Controls τ} {length : Duration} {w w' : τ}

theorem Controls.window_ok {s : Snapshot} (done : controls.window length w = (.ok s, w')) :
    ∃ cleared w₁, controls.collect w = (.ok cleared, w₁) ∧
      controls.collect (controls.rest length w₁) = (.ok s, w') := by
  obtain ⟨cleared, w₁, first, later⟩ := Action.bind_ok done
  obtain ⟨_, w₂, rested, last⟩ := Action.bind_ok later
  cases rested
  exact ⟨cleared, w₁, first, last⟩

theorem experiment_ok {timings : Timings} {injector : Injector τ} {windows : Windows}
    (done : experiment controls timings injector w = (.ok windows, w')) :
    ∃ broken failing mended,
      injector.start (controls.rest timings.warming w) = (broken, .ok ()) ∧
      controls.window timings.duration broken = (.ok windows.during, failing) ∧
      injector.stop failing = (mended, .ok ()) ∧
      controls.window timings.recovery mended = (.ok windows.after, w') := by
  obtain ⟨_, warm, rested, later⟩ := Action.bind_ok done
  cases rested
  obtain ⟨_, broken, started, later⟩ := Action.bind_ok later
  obtain ⟨during, failing, first, later⟩ := Action.bind_ok later
  obtain ⟨_, mended, stopped, later⟩ := Action.bind_ok later
  obtain ⟨after, w₅, second, last⟩ := Action.bind_ok later
  cases last
  exact ⟨broken, failing, mended, Action.of_ok started, first, Action.of_ok stopped, second⟩

end

/-! ## Windows at a site -/

namespace World

variable {σ κ π : Type} {w w' : World σ κ π}

structure Ready (w : World σ κ π) : Prop where
  orderly : w.site.exchange.Orderly
  idle : w.site.exchange.Idle

theorem Ready.background (ready : w.Ready) (background : w.site.exchange.Background w'.site.exchange) :
    w'.Ready ∧ ∃ notes, w'.site.log = w.site.log ++ notes ∧ Quiet notes := by
  obtain ⟨idle, log⟩ := ready.idle.background ready.orderly background
  exact ⟨⟨background.orderly ready.orderly, idle⟩, log⟩

variable [Store σ κ π]

theorem ready_after (store : σ) (past : List (Move σ))
    (idle : (Site.after store past : Site σ κ π).exchange.awaiting = false)
    (schedule : List (List (Happening σ))) : Ready (⟨Site.after store past, schedule⟩ : World σ κ π) := by
  have orderly := Site.orderly_follow ({ store } : Site σ κ π) Exchange.orderly_start past
  refine ⟨orderly, ?_⟩
  rcases orderly.phase with waits | ⟨base, called, -⟩
  · exact waits
  · have busy : (Site.after store past : Site σ κ π).exchange.awaiting = true := called.awaiting
    rw [idle] at busy
    contradiction

theorem Ready.window (ready : w.Ready) {length : Duration} {s : Snapshot}
    (done : controls.window length w = (.ok s, w')) :
    w'.Ready ∧ w.Leads w' ∧ Window w.site.log w'.site.log s := by
  obtain ⟨cleared, w₁, first, second⟩ := Controls.window_ok done
  obtain ⟨leads₁, call₁⟩ := demand_ok first
  obtain ⟨leads₂, call₂⟩ := demand_ok second
  obtain ⟨rests, background⟩ := leads_rest w₁
  obtain ⟨idle, orderly, window⟩ := ready.idle.window ready.orderly call₁ background call₂
  exact ⟨⟨orderly, idle⟩, (leads₁.trans rests).trans leads₂, window⟩

/-- What leads from one world to the other happens without the controller. -/
def Acts (w w' : World σ κ π) : Prop := ∃ happenings, w'.site = w.site.play happenings

theorem Acts.background (acts : w.Acts w') : w.site.exchange.Background w'.site.exchange := by
  obtain ⟨happenings, same⟩ := acts
  rw [same]
  exact w.site.background_play happenings

end World

/-- The failure has nothing to do with the controller: while it is brought about, whatever happens happens
without it. -/
structure Injector.StaysOutside {σ κ π : Type} [Store σ κ π] (injector : Injector (World σ κ π)) : Prop where
  start : ∀ w : World σ κ π, w.Acts (injector.start w).1
  stop : ∀ w : World σ κ π, w.Acts (injector.stop w).1

/-! ## Faults -/

instance {σ κ π : Type} [FaultTarget σ] : FaultTarget (World σ κ π) where
  inject fault w :=
    let (store, result) := FaultTarget.inject fault w.site.store
    ({ w with site := { w.site with store } }, result)

theorem Scenario.staysOutside {σ κ π : Type} [Store σ κ π] [FaultTarget σ] (scenario : Scenario) :
    (scenario.injector : Injector (World σ κ π)).StaysOutside := by
  have acts (fault : Option Fault) (w : World σ κ π) : w.Acts (Scenario.inject fault w).1 := by
    cases fault with
    | none => exact ⟨[], rfl⟩
    | some fault => exact ⟨[.change fun store => (FaultTarget.inject fault store).1], rfl⟩
  exact ⟨acts _, acts _⟩

namespace World

variable {σ κ π : Type} [Store σ κ π]

/-- An experiment that runs to its end after calls of which none was cancelled. Everything that the first
window shows was recorded after the failure had begun and before it was ended, everything that the second
shows after it had been ended; and a window shows all that was recorded between its two snapshots. -/
theorem windows_are_apart (store : σ) (past : List (Move σ))
    (idle : (Site.after store past : Site σ κ π).exchange.awaiting = false)
    (schedule : List (List (Happening σ))) (timings : Timings)
    (injector : Injector (World σ κ π)) (outside : injector.StaysOutside) (windows : Windows)
    (w : World σ κ π)
    (done : experiment controls timings injector ⟨Site.after store past, schedule⟩ =
      (.ok windows, w)) :
    ∃ whole broken failing mended : World σ κ π,
      injector.start whole = (broken, .ok ()) ∧ injector.stop failing = (mended, .ok ()) ∧
      Window broken.site.log failing.site.log windows.during ∧
      (∃ notes, mended.site.log = failing.site.log ++ notes) ∧
      Window mended.site.log w.site.log windows.after := by
  obtain ⟨broken, failing, mended, started, first, stopped, second⟩ := experiment_ok done
  obtain ⟨warm, -⟩ := (ready_after store past idle schedule).background (leads_rest _).2
  have begins := outside.start (rest ⟨Site.after store past, schedule⟩)
  have ends := outside.stop failing
  change injector.start (rest _) = _ at started
  rw [started] at begins
  rw [stopped] at ends
  obtain ⟨ready, -⟩ := warm.background begins.background
  obtain ⟨ready', -, during⟩ := ready.window first
  obtain ⟨ready'', notes, log, -⟩ := ready'.background ends.background
  obtain ⟨-, -, after⟩ := ready''.window second
  exact ⟨_, broken, failing, mended, started, stopped, during, ⟨notes, log⟩, after⟩

def smallBank : Cluster :=
  { settings := {}, replicas := List.replicate 3 { accounts := .seed 4 } }

/-- An experiment in which a loop that moves money begins after the failure, between two snapshots. -/
def lateLoop : List (List (Happening Cluster)) :=
  let answers : List (Happening Cluster) := [.respond 0, .respond 0]
  let transfer : List (Happening Cluster) := (List.range 7).map fun random => .wake 0 false random 10
  [[], [], answers, [], [], answers, [], answers,
    .launch 0 (.transfer 4 7) ⟨.zero, .zero⟩ :: transfer, [], answers]

theorem window_of_lateLoop :
    ∃ (windows : Windows) (broken failing mended w : World Cluster Cluster.Session Cluster.Waiting),
      Window broken.site.log failing.site.log windows.during ∧
      (∃ notes, mended.site.log = failing.site.log ++ notes) ∧
      Window mended.site.log w.site.log windows.after ∧
      windows.after.count ⟨0, .transfer⟩ commit = 1 := by
  let start : World Cluster Cluster.Session Cluster.Waiting := ⟨Site.after smallBank [], lateLoop⟩
  have counted : (experiment controls {} (Scenario.partition 2).injector start).1.toOption.any
      (fun windows => windows.after.count ⟨0, .transfer⟩ commit == 1) = true := by decide +kernel
  cases done : experiment controls {} (Scenario.partition 2).injector start with
  | mk result w =>
      rw [done] at counted
      cases result with
      | error e => exact absurd counted Bool.false_ne_true
      | ok windows =>
          obtain ⟨whole, broken, failing, mended, -, -, during, ends, after⟩ :=
            windows_are_apart smallBank [] rfl lateLoop {} (Scenario.partition 2).injector
              (Scenario.partition 2).staysOutside windows w done
          exact ⟨windows, broken, failing, mended, w, during, ends, after, of_decide_eq_true counted⟩

end World

end LedgerDrill
