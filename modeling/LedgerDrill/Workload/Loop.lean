import LedgerDrill.Outcome.Registry
import LedgerDrill.Workload.Body

namespace LedgerDrill.Workload

structure Settings where
  backoff : Duration
  connectTimeout : Duration
deriving DecidableEq

structure Loop (κ : Type) where
  node : Nat
  body : Body
  settings : Settings
  session : Option κ := none

inductive Point (κ π : Type)
  | connecting
  | rollingBack (session : κ) (point : π)
  | working (session : κ) (current : Statement) (point : π) (rest : List Statement)
  | backingOff

inductive Wait
  | roundTrip (latency : Latency)
  | pause (length : Duration)
  | connection (latency : Latency) (limit : Duration)

inductive LoopNext (κ π : Type)
  | done
  | waiting (wait : Wait) (point : Point κ π)

structure LoopTurn (σ κ π : Type) where
  store : σ
  loop : Loop κ
  ending : Option Ending := none
  next : LoopNext κ π

def timeoutError (node : Nat) : StoreError := .connectFailed node "timeout expired"

namespace Loop

variable {σ κ π : Type} [Store σ κ π]

def openSession? (l : Loop κ) (isClosed : κ → Bool) : Option κ :=
  l.session.filter (!isClosed ·)

/-- Ends an iteration with an answer. A closed session is dropped after an error, and the loop backs
off. -/
def conclude (l : Loop κ) (store : σ) (session : Option κ) (answer : Answer) : LoopTurn σ κ π :=
  let (body, ending) := l.body.conclude answer
  match ending with
  | .ok _ => ⟨store, { l with body, session }, some ending, .done⟩
  | .error _ =>
    let session := session.filter (!Store.isClosed σ ·)
    ⟨store, { l with body, session }, some ending, .waiting (.pause l.settings.backoff) .backingOff⟩

def ofPlanTurn (l : Loop κ) (turn : PlanTurn σ κ π) : LoopTurn σ κ π :=
  match turn.next with
  | .answered answer => l.conclude turn.store (some turn.session) answer
  | .waiting latency current point rest =>
    ⟨turn.store, { l with session := none }, none,
      .waiting (.roundTrip latency) (.working turn.session current point rest)⟩

def work (l : Loop κ) (random : Nat) (store : σ) (session : κ) : LoopTurn σ κ π :=
  match l.body.plan random with
  | .error e => l.conclude store (some session) (.error e)
  | .ok statements => l.ofPlanTurn (startPlan statements .done store session)

def ofRollback (l : Loop κ) (random : Nat) (turn : Turn σ κ π) : LoopTurn σ κ π :=
  match turn.next with
  | .answered (.error e) => l.conclude turn.store (some turn.session) (.error e)
  | .answered (.ok _) => l.work random turn.store turn.session
  | .waiting latency point =>
    ⟨turn.store, { l with session := none }, none,
      .waiting (.roundTrip latency) (.rollingBack turn.session point)⟩

/-- Uses an open session: what an earlier iteration left open is rolled back before the body. -/
def use (l : Loop κ) (random : Nat) (store : σ) (session : κ) : LoopTurn σ κ π :=
  if Store.status σ session = .idle then l.work random store session
  else l.ofRollback random (Store.start .rollback store session)

def connected (l : Loop κ) (random : Nat) (store : σ) : LoopTurn σ κ π :=
  let (store, result) := Store.accept store l.node
  match result with
  | .error e => l.conclude store none (.error e)
  | .ok session => l.use random store session

def start (l : Loop κ) (random : Nat) (store : σ) : LoopTurn σ κ π :=
  match l.openSession? (Store.isClosed σ) with
  | some session => l.use random store session
  | none =>
    match Store.dial store l.node with
    | (store, none) => l.connected random store
    | (store, some latency) =>
      ⟨store, { l with session := none }, none,
        .waiting (.connection latency l.settings.connectTimeout) .connecting⟩

def resume (l : Loop κ) (point : Point κ π) (expired : Bool) (random : Nat) (store : σ) :
    LoopTurn σ κ π :=
  match point with
  | .connecting =>
    if expired then l.conclude store none (.error (timeoutError l.node))
    else l.connected random store
  | .rollingBack session point => l.ofRollback random (Store.resume point store session)
  | .working session current point rest =>
    l.ofPlanTurn (resumePlan current point rest store session)
  | .backingOff => ⟨store, l, none, .done⟩

def kind (l : Loop κ) : LoopKind := l.body.kind

end Loop

def Point.waits {κ π : Type} : Point κ π → Nat
  | .backingOff => 1
  | _ => 64

def Ending.message : Ending → String
  | .ok _ => Outcome.commit
  | .error e => e.message

end LedgerDrill.Workload
