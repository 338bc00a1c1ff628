import LedgerDrill.Proofs.Cluster.Balance
import LedgerDrill.Proofs.Cluster.Traffic
import LedgerDrill.Proofs.Outcome.Windows
import LedgerDrill.Workload.Task

namespace LedgerDrill.Workload
open Cluster Outcome

/-! ## The calls of a loop -/

/-- The calls of the next statement, which starts if the current one has succeeded. -/
def followCalls (turn : SessionTurn) (current : Statement) : List Statement → List Call
  | [] => []
  | next :: _ =>
    match turn.next with
    | .answered answer =>
      if (answer.bind (checkReply current)).toBool then startCalls turn.session next else []
    | .waiting .. => []

/-- The calls that begin an iteration. Neither a rollback nor a body starts with a call. -/
def Loop.calls (l : Loop Session) (c : Cluster) : List Call :=
  match l.openSession? (Store.isClosed Cluster) with
  | some _ => []
  | none => if 0 < c.settings.connectDelay then [] else [.openSession l.node]

namespace Point

def calls (c : Cluster) (node : Nat) (expired : Bool) : Point Session Waiting → List Call
  | .connecting => if expired then [] else [.openSession node]
  | .rollingBack s w => w.calls c s
  | .working s current w rest =>
    w.calls c s ++ followCalls (resumeStatement w c s) current rest
  | .backingOff => []

def draw (drawn random : Nat) : Point Session Waiting → Nat
  | .working .. => drawn
  | _ => random

end Point

/-! ## Loops in any order -/

/-- A loop with the body that it was launched with. It has no task after its end or its abort. -/
structure Runner where
  node : Nat
  body : Body
  /-- The random number of the iteration in flight. -/
  draw : Nat := 0
  task : Option (Task Session Waiting)

structure Round where
  runner : Nat
  node : Nat
  body : Body
  draw : Nat
  ending : Ending

/-- What a step of a task adds to the records of a drill: its calls, and the ending of an iteration with
the body before it. -/
structure Stride where
  draw : Nat
  calls : List Call := []
  ending : Option (Body × Ending) := none

namespace Stride

def ofEnding (draw : Nat) (calls : List Call) (body : Body) (ending : Option Ending) : Stride :=
  { draw, calls, ending := ending.map (body, ·) }

def rounds (s : Stride) (runner node : Nat) : List Round :=
  (s.ending.map fun (body, ending) => { runner, node, body, draw := s.draw, ending }).toList

end Stride

def Task.stride (c : Cluster) (drawn : Nat) (expired : Bool) (random : Nat) :
    Task Session Waiting → Stride
  | .iteration i | .running i _ _ =>
    .ofEnding (i.point.draw drawn random) (i.point.calls c i.loop.node expired) i.loop.body
      (i.loop.resume i.point expired random c).ending
  | .resting loop true _ =>
    .ofEnding random (loop.calls c) loop.body (loop.start random c).ending
  | .resting _ false _ | .statement .. => { draw := drawn }

def Ending.isAlarm (ending : Ending) : Bool := ending matches .ok true

def Round.writes (r : Round) : List (List Write) :=
  match r.body, r.ending with
  | .transfer accounts amount, .ok _ => [moveWrites (Body.drawSource accounts r.draw) amount]
  | _, _ => []

structure Drill where
  shared : Shared Cluster
  runners : List Runner := []
  /-- The snapshots that were taken, oldest first. -/
  snapshots : List Snapshot := []
  calls : List Call := []
  rounds : List Round := []

inductive Event
  | launch (node : Nat) (body : Body) (settings : Settings)
  | wake (runner : Nat) (expired : Bool) (random : Nat) (now : Instant)
  | setFlag (runner : Nat) (value : Bool)
  | abort (runner : Nat)
  | fault (fault : Fault)
  | takeSnapshot (now : Instant)

def Course.task? : Course Session Waiting → Option (Task Session Waiting)
  | .landed _ => none
  | .waiting _ task => some task

namespace Drill

def advance (d : Drill) (i : Nat) (runner : Runner) (task : Task Session Waiting) (expired : Bool)
    (random : Nat) (now : Instant) : Drill :=
  let (shared, course) := d.shared.resume task expired random now
  let stride := task.stride d.shared.store runner.draw expired random
  { d with
    shared
    runners := d.runners.set i { runner with draw := stride.draw, task := course.task? }
    calls := d.calls ++ stride.calls
    rounds := d.rounds ++ stride.rounds i runner.node }

def retask (d : Drill) (i : Nat) (f : Task Session Waiting → Option (Task Session Waiting)) : Drill :=
  match d.runners[i]? with
  | some runner =>
    { d with runners := d.runners.set i { runner with task := runner.task.bind f } }
  | none => d

def step (d : Drill) : Event → Drill
  | .launch node body settings =>
    let loop : Loop Session := { node, body, settings }
    { d with
      shared := d.shared.register loop
      runners := d.runners ++ [{ node, body, task := some (.resting loop true 0) }] }
  | .wake i expired random now =>
    match d.runners[i]? with
    | some runner =>
      match runner.task with
      | some task => d.advance i runner task expired random now
      | none => d
    | none => d
  | .setFlag i value => d.retask i fun task => some (task.setFlag value)
  | .abort i => d.retask i fun _ => none
  | .fault fault =>
    { d with
      shared := { d.shared with store := (inject fault d.shared.store).1 }
      calls := d.calls ++ [.fault fault] }
  | .takeSnapshot now =>
    let (snapshot, registry) := d.shared.registry.takeSnapshot now
    { d with shared := { d.shared with registry }, snapshots := d.snapshots ++ [snapshot] }

/-- A drill on a cluster of which something was asked before. -/
def run (settings : Cluster.Settings) (calls : List Call) (events : List Event) : Drill :=
  events.foldl step { shared := { store := (Ledger.run settings calls).cluster }, calls }

def ledger (settings : Cluster.Settings) (d : Drill) : Ledger := Ledger.run settings d.calls

def moves (d : Drill) : List (List Write) := d.rounds.flatMap Round.writes

/-- What the successful iterations of a loop told, oldest first. -/
def readings (d : Drill) (i : Nat) : List Bool :=
  d.rounds.filterMap fun round => if round.runner = i then round.ending.toOption else none

def alarms (d : Drill) (node : Nat) : Nat :=
  d.rounds.countP fun round => round.node == node && Ending.isAlarm round.ending

theorem advance_lowered {d : Drill} {i : Nat} {runner : Runner} (found : d.runners[i]? = some runner)
    (loop : Loop Session) (completed : Nat) (expired : Bool) (random : Nat) (now : Instant) :
    d.advance i runner (.resting loop false completed) expired random now = d.retask i fun _ => none := by
  simp [advance, retask, Shared.resume, Shared.continueRun, Course.task?, Task.stride, Stride.rounds, found]

/-- The commits that are counted for transfers, in all windows together. -/
def commits (d : Drill) : Nat :=
  overall (·.commits .transfer) d.snapshots d.shared.registry

/-- The violations that are counted on a node, in all windows together. -/
def violations (d : Drill) (node : Nat) : Nat :=
  overall (·.violations node) d.snapshots d.shared.registry

end Drill

end LedgerDrill.Workload
