import LedgerDrill.Config
import LedgerDrill.Control.Channel
import LedgerDrill.Experiment
import LedgerDrill.Timeline

namespace LedgerDrill
open Control Outcome Workload

inductive Phase
  | working
  | finished (report : WorkerReport)
  | panicked
deriving DecidableEq

structure Worker where
  channel : Channel
  phase : Phase
  grace : Duration
deriving DecidableEq

/-- A task of a worker is named by the key of its loop. Other tasks, which use the store beside the
worker, have no name. -/
abbrev Worker.Name := Option Key

abbrev Workplace (σ κ π : Type) := Timeline Worker.Name σ κ π

namespace Worker

def settings (config : Config) : Settings :=
  { backoff := config.failureBackoff, connectTimeout := config.connectTimeout }

def bodies (config : Config) : List Body :=
  [.transfer config.accounts config.transferAmount, .sumTotal ⟨config.expectedTotal⟩]

def isRunning (w : Worker) : Bool := w.phase = .working

section
variable {σ κ π : Type} [Store σ κ π]

def loops (σ : Type) [Store σ κ π] (config : Config) (store : σ) : List (Loop κ) :=
  (List.range (Store.size store)).flatMap fun node =>
    (bodies config).map fun body => { node, body, settings := settings config }

/-- Starts a loop. A loop that is lost is only registered, as it began and never came to an end. -/
def launch (p : Workplace σ κ π) (loop : Loop κ) : Workplace σ κ π :=
  let p := { p with shared := p.shared.register loop }
  if Store.losesLoop p.shared.store loop.node then
    { p with shared.registry := p.shared.registry.update loop.key (·.start Timeline.stopwatch) }
  else p.launchRun (some loop.key) loop true

def spawn (config : Config) (p : Workplace σ κ π) :
    Except RunError (Worker × Workplace σ κ π) := do
  config.validate.mapError .config
  let channel : Channel := {}
  if Store.losesWorker p.shared.store then
    return ({ channel := channel.dropResponder, phase := .panicked, grace := config.stopGrace }, p)
  let p := { p with shared.registry := {}, flights := [], landed := [] }
  return ({ channel := channel.serve, phase := .working, grace := config.stopGrace },
    (loops σ config p.shared.store).foldl launch p)

/-- A call to the responder. Without an answer the call would wait for ever. -/
def call {α : Type} (w : Worker) (p : Workplace σ κ π)
    (use : Channel → Registry → Instant → Channel.Call α) :
    Worker × Workplace σ κ π × Except RunError α :=
  let (channel, registry, result) := use w.channel p.shared.registry Timeline.stopwatch
  ({ w with channel }, { p with shared.registry := registry }, result.getD (.error .noReply))

def requestStatus (w : Worker) (p : Workplace σ κ π) :
    Worker × Workplace σ κ π × Except RunError Snapshot :=
  w.call p Channel.requestStatus

def sendFrame (w : Worker) (frame : String) (p : Workplace σ κ π) :
    Worker × Workplace σ κ π × Except RunError Unit :=
  w.call p fun channel registry now => channel.sendFrame frame registry now

def iterations : Landing κ → Nat
  | .run count => count
  | _ => 0

def finish (w : Worker) (p : Workplace σ κ π) : Worker × Workplace σ κ π :=
  if !w.isRunning then (w, p)
  else
    let names := p.flights.map (·.1)
    let p := names.foldl (fun p name => p.setFlag name false) p
    let p := p.advance (p.now + w.grace.nanos)
    let report : WorkerReport :=
      { loops := p.shared.registry.size
        iterations := (p.landed.map fun landed => iterations landed.2).foldl (· + ·) 0
        aborted := p.flights.length }
    ({ w with channel := w.channel.dropResponder, phase := .finished report },
      { p with flights := [], landed := [] })

def stop (w : Worker) (p : Workplace σ κ π) :
    Worker × Workplace σ κ π × Except RunError WorkerReport :=
  let (w, p) := w.finish p
  match w.phase with
  | .finished report => (w, p, .ok report)
  | .working | .panicked => (w, p, .error .workerPanicked)

end

end Worker

end LedgerDrill
