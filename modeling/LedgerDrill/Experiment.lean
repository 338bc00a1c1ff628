import LedgerDrill.Config
import LedgerDrill.Scenario
import LedgerDrill.Verdict

namespace LedgerDrill
open Outcome (Snapshot)

structure WorkerReport where
  loops : Nat
  iterations : Nat
  aborted : Nat
deriving DecidableEq, Repr

abbrev Action (τ α : Type) := ExceptT RunError (StateM τ) α

def Action.of {τ α : Type} (f : τ → τ × Except RunError α) : Action τ α := fun world =>
  let (world, result) := f world
  (result, world)

structure Controls (τ : Type) where
  rest : Duration → τ → τ
  collect : Action τ Snapshot
  stop : Action τ WorkerReport
  isIdentical : Action τ Bool
  prepared : Action τ Nat

namespace Controls

variable {τ : Type} (controls : Controls τ)

def pause (length : Duration) : Action τ Unit := modify (controls.rest length)

def window (length : Duration) : Action τ Snapshot := do
  let _ ← controls.collect
  controls.pause length
  controls.collect

end Controls

def experiment {τ : Type} (controls : Controls τ) (timings : Timings) (injector : Injector τ) :
    Action τ Windows := do
  controls.pause timings.warming
  Action.of injector.start
  let during ← controls.window timings.duration
  Action.of injector.stop
  let after ← controls.window timings.recovery
  return { during, after }

end LedgerDrill
