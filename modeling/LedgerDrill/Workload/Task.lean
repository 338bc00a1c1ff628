import LedgerDrill.Outcome.Registry
import LedgerDrill.Workload.Loop

namespace LedgerDrill.Workload
open Outcome (Instant Key Registry)

structure Shared (σ : Type) where
  store : σ
  registry : Registry := {}

structure Iteration (κ π : Type) where
  loop : Loop κ
  started : Instant
  point : Point κ π

inductive Task (κ π : Type)
  | statement (session : κ) (point : π)
  | iteration (iteration : Iteration κ π)
  | running (iteration : Iteration κ π) (flag : Bool) (completed : Nat)
  | resting (loop : Loop κ) (flag : Bool) (completed : Nat)

inductive Landing (κ : Type)
  | statement (session : κ) (answer : Answer)
  | iteration (loop : Loop κ)
  | run (iterations : Nat)

def Landing.isSingle {κ : Type} : Landing κ → Bool
  | .iteration _ => true
  | _ => false

inductive Course (κ π : Type)
  | landed (landing : Landing κ)
  | waiting (wait : Wait) (task : Task κ π)

namespace Loop

def key {κ : Type} (l : Loop κ) : Key := ⟨l.node, l.kind⟩

end Loop

section
variable {σ κ π : Type} [Store σ κ π]

def record (registry : Registry) (key : Key) (started now : Instant) : Option Ending → Registry
  | none => registry
  | some ending =>
    registry.update key fun aggregate =>
      aggregate.finish started now (Ending.message ending) (ending matches .ok true)

def Shared.takeTurn (shared : Shared σ) (started now : Instant) (turn : LoopTurn σ κ π) :
    Shared σ × Loop κ × LoopNext κ π :=
  ({ store := turn.store
     registry := record shared.registry turn.loop.key started now turn.ending },
   turn.loop, turn.next)

def Shared.register (shared : Shared σ) (loop : Loop κ) : Shared σ :=
  { shared with registry := shared.registry.register loop.key }

def Shared.startIteration (shared : Shared σ) (loop : Loop κ) (random : Nat) (now : Instant) :
    Shared σ × Loop κ × LoopNext κ π :=
  let shared := { shared with registry := shared.registry.update loop.key (·.start now) }
  shared.takeTurn now now (loop.start random shared.store)

def Shared.resumeIteration (shared : Shared σ) (i : Iteration κ π) (expired : Bool) (random : Nat)
    (now : Instant) : Shared σ × Loop κ × LoopNext κ π :=
  shared.takeTurn i.started now (i.loop.resume i.point expired random shared.store)

namespace Course

def ofStatement (turn : Turn σ κ π) : Course κ π :=
  match turn.next with
  | .answered answer => .landed (.statement turn.session answer)
  | .waiting latency point => .waiting (.roundTrip latency) (.statement turn.session point)

def ofIteration (started : Instant) (loop : Loop κ) : LoopNext κ π → Course κ π
  | .done => .landed (.iteration loop)
  | .waiting wait point => .waiting wait (.iteration ⟨loop, started, point⟩)

def ofRun (flag : Bool) (completed : Nat) (started : Instant) (loop : Loop κ) :
    LoopNext κ π → Course κ π
  | .done => .waiting (.pause .zero) (.resting loop flag (completed + 1))
  | .waiting wait point => .waiting wait (.running ⟨loop, started, point⟩ flag completed)

end Course

def Shared.launchStatement (shared : Shared σ) (statement : Statement) (session : κ) :
    Shared σ × Course κ π :=
  let turn := Store.start statement shared.store session
  ({ shared with store := turn.store }, .ofStatement turn)

def Shared.launchIteration (shared : Shared σ) (loop : Loop κ) (random : Nat) (now : Instant) :
    Shared σ × Course κ π :=
  let (shared, loop, next) := shared.startIteration loop random now
  (shared, .ofIteration now loop next)

def Shared.continueRun (shared : Shared σ) (loop : Loop κ) (flag : Bool) (completed random : Nat)
    (now : Instant) : Shared σ × Course κ π :=
  if flag then
    let (shared, loop, next) := shared.startIteration loop random now
    (shared, .ofRun flag completed now loop next)
  else (shared, .landed (.run completed))

def Shared.resume (shared : Shared σ) (task : Task κ π) (expired : Bool) (random : Nat)
    (now : Instant) : Shared σ × Course κ π :=
  match task with
  | .statement session point =>
    let turn := Store.resume point shared.store session
    ({ shared with store := turn.store }, .ofStatement turn)
  | .iteration i =>
    let (shared, loop, next) := shared.resumeIteration i expired random now
    (shared, .ofIteration i.started loop next)
  | .running i flag completed =>
    let (shared, loop, next) := shared.resumeIteration i expired random now
    (shared, .ofRun flag completed i.started loop next)
  | .resting loop flag completed => shared.continueRun loop flag completed random now

/-- A bound on how often a task still waits. A running loop must find its flag down. -/
def Task.waits (σ : Type) [Store σ κ π] : Task κ π → Nat
  | .statement _ point => Store.waits σ point
  | .iteration i => i.point.waits
  | .running i _ _ => i.point.waits + 1
  | .resting .. => 1

def Task.runsOn : Task κ π → Bool
  | .running _ flag _ | .resting _ flag _ => flag
  | _ => false

def Task.isSingle : Task κ π → Bool
  | .iteration _ => true
  | _ => false

def Task.setFlag (value : Bool) : Task κ π → Task κ π
  | .running i _ completed => .running i value completed
  | .resting loop _ completed => .resting loop value completed
  | task => task

end

end LedgerDrill.Workload
