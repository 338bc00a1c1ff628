import LedgerDrill.Scenario
import LedgerDrill.Timeline

namespace LedgerDrill
open Workload

structure Flag where
  raised : Bool := true
  held : Bool := true
deriving DecidableEq, Repr

namespace Flag

def isUp (flag : Flag) : Bool := flag.raised && flag.held

def set (flag : Flag) (value letGo : Bool) : Flag :=
  { raised := if flag.held then value else flag.raised, held := flag.held && !letGo }

end Flag

inductive Slot (κ : Type)
  | session (session : κ)
  | loop (loop : Loop κ) (flag : Flag)

structure Rehearsal (σ κ π : Type) where
  timeline : Timeline String σ κ π
  settings : Settings
  slots : List (String × Slot κ) := []
  flags : List (String × Flag) := []

inductive Finding
  | nothing
  | failure (error : StoreError)
  | reply (reply : Reply)
  | statistics
  | iterations (count : Nat)
  | stillRunning
deriving DecidableEq

namespace Rehearsal

variable {σ κ π : Type} [Store σ κ π]

def new (store : σ) (settings : Settings) : Rehearsal σ κ π :=
  { timeline := { shared := { store } }, settings }

def store (r : Rehearsal σ κ π) : σ := r.timeline.shared.store

def millis (r : Rehearsal σ κ π) : Nat := r.timeline.now / nanosPerMilli

def slot? (r : Rehearsal σ κ π) (name : String) : Option (Slot κ) := r.slots.lookup name

def session? (r : Rehearsal σ κ π) (name : String) : Option κ :=
  match r.slot? name with
  | some (.session session) => some session
  | _ => none

def loop? (r : Rehearsal σ κ π) (name : String) : Option (Loop κ × Flag) :=
  match r.slot? name with
  | some (.loop loop flag) => some (loop, flag)
  | _ => none

def clear (r : Rehearsal σ κ π) (name : String) : Rehearsal σ κ π :=
  { r with slots := r.slots.filter (·.1 != name) }

def put (r : Rehearsal σ κ π) (name : String) (slot : Slot κ) : Rehearsal σ κ π :=
  { r with slots := (name, slot) :: (r.clear name).slots }

/-- Lets so many milliseconds pass, counted from the last whole one. All that is due in the last of
them happens. -/
def wait (r : Rehearsal σ κ π) (millis : Nat) : Rehearsal σ κ π :=
  let target := r.millis + millis
  let timeline := r.timeline.advance ((target + 1) * nanosPerMilli - 1)
  { r with timeline := { timeline with now := max timeline.now (target * nanosPerMilli) } }

def withStore (r : Rehearsal σ κ π) (store : σ) : Rehearsal σ κ π :=
  { r with timeline.shared.store := store }

def connect (r : Rehearsal σ κ π) (name : String) (node : Nat) : Rehearsal σ κ π × Finding :=
  let (timeline, result) := r.timeline.connect node
  let r := { r with timeline }
  match result with
  | .error e => (r, .failure e)
  | .ok session => (r.put name (.session session), .nothing)

def openLoop (r : Rehearsal σ κ π) (name : String) (node : Nat) (body : Body) :
    Rehearsal σ κ π :=
  let loop : Loop κ := { node, body, settings := r.settings }
  { r with timeline.shared := r.timeline.shared.register loop }.put name (.loop loop {})

def collect (r : Rehearsal σ κ π) (name : String) : Option (Rehearsal σ κ π × Finding) :=
  let (landing, timeline) := r.timeline.collect name
  let flag := (r.flags.lookup name).getD {}
  let r := { r with timeline, flags := r.flags.filter (·.1 != name) }
  match landing with
  | none => none
  | some (.statement session (.ok reply)) => some (r.put name (.session session), .reply reply)
  | some (.statement session (.error e)) => some (r.put name (.session session), .failure e)
  | some (.iteration loop) => some (r.put name (.loop loop flag), .statistics)
  | some (.run iterations) => some (r, .iterations iterations)

def finish (r : Rehearsal σ κ π) (name : String) : Option (Rehearsal σ κ π × Finding) :=
  if (r.timeline.flight? name).any (·.task.runsOn) then some (r, .stillRunning)
  else { r with timeline := r.timeline.await name }.collect name

def launch (r : Rehearsal σ κ π) (name : String) (statement : Statement) :
    Option (Rehearsal σ κ π) :=
  (r.session? name).map fun session =>
    { r.clear name with timeline := r.timeline.launchStatement name statement session }

def launchIteration (r : Rehearsal σ κ π) (name : String) : Option (Rehearsal σ κ π) :=
  (r.loop? name).map fun (loop, flag) =>
    { r.clear name with
      timeline := r.timeline.launchIteration name loop
      flags := (name, flag) :: r.flags }

def run (r : Rehearsal σ κ π) (name : String) : Option (Rehearsal σ κ π) :=
  (r.loop? name).map fun (loop, flag) =>
    { r.clear name with
      timeline := r.timeline.launchRun name loop flag.isUp
      flags := (name, flag) :: r.flags }

def perform (r : Rehearsal σ κ π) (name : String) (statement : Statement) :
    Option (Rehearsal σ κ π × Finding) :=
  (r.launch name statement).bind (·.finish name)

def iterate (r : Rehearsal σ κ π) (name : String) : Nat → Option (Rehearsal σ κ π)
  | 0 => (r.loop? name).map fun _ => r
  | times + 1 =>
    match (r.launchIteration name).bind (·.finish name) with
    | some (r, _) => r.iterate name times
    | none => none

def cancel (r : Rehearsal σ κ π) (name : String) : Option (Rehearsal σ κ π) :=
  if (r.slot? name).isSome || (r.timeline.flight? name).isSome ||
      (r.timeline.landed.lookup name).isSome then
    some { r.clear name with
      timeline := r.timeline.drop name, flags := r.flags.filter (·.1 != name) }
  else none

/-- Sets the flag of a loop, and then lets it go if asked to. A flag that nobody holds is set no more.
Tells whether it was held, unless the loop runs. -/
def setFlag (r : Rehearsal σ κ π) (name : String) (value letGo : Bool) :
    Option (Rehearsal σ κ π × Option Bool) :=
  match r.loop? name, r.flags.lookup name with
  | some (loop, flag), _ =>
    some (r.put name (.loop loop (flag.set value letGo)), some flag.held)
  | none, some flag =>
    let changed := flag.set value letGo
    let isSingle := (r.timeline.flight? name).any (·.task.isSingle) ||
      (r.timeline.landed.lookup name).any (·.isSingle)
    some ({ r with
        timeline := r.timeline.setFlag name changed.isUp
        flags := (name, changed) :: r.flags.filter (·.1 != name) },
      if isSingle then some flag.held else none)
  | none, none => none

end Rehearsal

end LedgerDrill
