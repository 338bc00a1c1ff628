import LedgerDrill.Workload.Body

namespace LedgerDrill.Workload

structure Alone (σ κ : Type) where
  store : σ
  session : κ
  answer : Answer
  elapsed : Nat := 0

section
variable {σ κ π : Type} [Store σ κ π]

/-- Takes the steps of a statement, as often as it may wait. A statement that would wait more often is
cut off. -/
def finishAlone (random : Nat) : (bound : Nat) → (elapsed : Nat) → Turn σ κ π → Alone σ κ
  | bound, elapsed, ⟨store, session, next⟩ =>
    match bound, next with
    | _, .answered answer => { store, session, answer, elapsed }
    | 0, .waiting .. => { store, session, answer := .error .connectionClosed, elapsed }
    | bound + 1, .waiting latency point =>
      finishAlone random bound (elapsed + latency.draw random) (Store.resume point store session)

def Turn.waits (turn : Turn σ κ π) : Nat :=
  match turn.next with
  | .answered _ => 0
  | .waiting _ point => Store.waits σ point

def runAlone (random : Nat) (statement : Statement) (store : σ) (session : κ) : Alone σ κ :=
  let turn := Store.start statement store session
  finishAlone random (Turn.waits turn) 0 turn

def runAllAlone (random : Nat) : List Statement → Alone σ κ → Alone σ κ
  | [], done => done
  | statement :: rest, ⟨store, session, _, elapsed⟩ =>
    let last := runAlone random statement store session
    let elapsed := elapsed + last.elapsed
    match last.answer.bind (checkReply statement) with
    | .error e => { last with answer := .error e, elapsed }
    | .ok reply => runAllAlone random rest { last with answer := .ok reply, elapsed }

def Body.runAlone (body : Body) (random : Nat) (store : σ) (session : κ) :
    Body × Ending × Alone σ κ :=
  let done := match body.plan random with
    | .error e => { store, session, answer := .error e }
    | .ok statements => runAllAlone random statements { store, session, answer := .ok .done }
  let (body, ending) := body.conclude done.answer
  (body, ending, done)

end

end LedgerDrill.Workload
