import LedgerDrill.Control.Command
import LedgerDrill.Error
import LedgerDrill.Outcome.Frame
import LedgerDrill.Outcome.Registry

namespace LedgerDrill.Control
open Outcome (Instant Registry Snapshot)

inductive Responder
  | idle
  | receiving
  | holding (reply : String)
  | ended
  | dropped
deriving DecidableEq, Repr

def Responder.isGone : Responder → Bool
  | ended | dropped => true
  | _ => false

structure Channel where
  request : Option String := none
  reply : Option String := none
  responder : Responder := .idle
  controlled : Bool := true
deriving DecidableEq, Repr

namespace Channel

def receive (c : Channel) (frame : String) (registry : Registry) (now : Instant) :
    Channel × Registry :=
  let c := { c with request := none }
  match Command.decode frame with
  | .ok .status =>
    let (snapshot, registry) := registry.takeSnapshot now
    ({ c with responder := .holding snapshot.frame }, registry)
  | _ => (c, registry)

/-- One step of the responder, if it can make one. Without a controller it answers what was sent, as
far as that goes, and ends. -/
def respond? (c : Channel) (registry : Registry) (now : Instant) : Option (Channel × Registry) :=
  match c.responder with
  | .idle | .ended | .dropped => none
  | .receiving =>
    match c.request with
    | some frame => some (c.receive frame registry now)
    | none => if c.controlled then none else some ({ c with responder := .ended }, registry)
  | .holding reply =>
    if !c.controlled then some ({ c with responder := .ended }, registry)
    else match c.reply with
      | none => some ({ c with reply := some reply, responder := .receiving }, registry)
      | some _ => none

def work (c : Channel) : Nat :=
  (if c.request.isSome then 3 else 0) +
    match c.responder with
    | .idle | .ended | .dropped => 0
    | .receiving => 1
    | .holding _ => 2

def settle (c : Channel) (registry : Registry) (now : Instant) : Channel × Registry :=
  match _step : c.respond? registry now with
  | none => (c, registry)
  | some (next, registry) => next.settle registry now
termination_by c.work
decreasing_by
  simp only [respond?] at _step
  split at _step <;> try contradiction
  · split at _step
    · next receiving _ frame request =>
      simp only [receive, Option.some.injEq] at _step
      split at _step <;> cases _step <;> simp [work, receiving, request]
    · split at _step
      · contradiction
      · cases _step
        next receiving _ request _ => simp [work, receiving, request]
  · next reply holding =>
    split at _step
    · cases _step
      simp [work, holding]
    · split at _step
      · cases _step
        simp [work, holding]
      · contradiction

def serve (c : Channel) : Channel :=
  if c.responder = .idle then { c with responder := .receiving } else c

def dropResponder (c : Channel) : Channel := { c with responder := .dropped, request := none }

def dropController (c : Channel) : Channel := { c with controlled := false, reply := none }

def send? (c : Channel) (frame : String) : Option (Except RunError Channel) :=
  if c.responder.isGone then some (.error .workerGone)
  else if c.request.isSome then none
  else some (.ok { c with request := some frame })

def receive? (c : Channel) : Option (Except RunError Snapshot × Channel) :=
  match c.reply with
  | some frame =>
    some ((Snapshot.ofFrame frame).mapError .malformedFrame, { c with reply := none })
  | none => if c.responder.isGone then some (.error .noReply, c) else none

/-- A call of the controller while nothing else happens. It gives nothing if it would wait for ever;
what it has sent by then stays sent. -/
abbrev Call (α : Type) := Channel × Registry × Option (Except RunError α)

def sendFrame (c : Channel) (frame : String) (registry : Registry) (now : Instant) : Call Unit :=
  match c.send? frame with
  | none => (c, registry, none)
  | some (.error e) => (c, registry, some (.error e))
  | some (.ok c) =>
    let (c, registry) := c.settle registry now
    (c, registry, some (.ok ()))

def requestStatus (c : Channel) (registry : Registry) (now : Instant) : Call Snapshot :=
  match c.sendFrame (Command.encode Command.status.text) registry now with
  | (c, registry, some (.ok ())) =>
    match c.receive? with
    | none => (c, registry, none)
    | some (result, c) =>
      let (c, registry) := c.settle registry now
      (c, registry, some result)
  | (c, registry, some (.error e)) => (c, registry, some (.error e))
  | (c, registry, none) => (c, registry, none)

end Channel

end LedgerDrill.Control
