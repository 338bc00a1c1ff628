import LedgerDrill.Cluster.Faults
import LedgerDrill.Cluster.Session
import LedgerDrill.Suite
import LedgerDrill.Worker

namespace LedgerDrill.Retry

variable {σ α : Type}

def attempt (tryOnce : σ → σ × Except StoreError α) (pause : σ → σ) :
    (left : Nat) → σ → σ × Except StoreError α
  | 0, state => tryOnce state
  | left + 1, state =>
    match tryOnce state with
    | (state, .error _) => attempt tryOnce pause left (pause state)
    | success => success

def keepTrying (tries : Nat) (name : String) (tryOnce : σ → σ × Except StoreError α)
    (pause : σ → σ) (state : σ) : σ × Except RunError α :=
  match tries with
  | 0 => (state, .error (.config (.noTries name)))
  | left + 1 =>
    let (state, result) := attempt tryOnce pause left state
    (state, result.mapError (.setupExhausted name tries))

end LedgerDrill.Retry

namespace LedgerDrill
open Outcome Workload

structure Client (σ κ π : Type) where
  config : Config
  workplace : Workplace σ κ π
  worker : Option Worker := none

namespace Client

variable {σ κ π : Type} [Store σ κ π]

def store (c : Client σ κ π) : σ := c.workplace.shared.store

def nodeCount (c : Client σ κ π) : Nat := Store.size c.store

def pause (length : Duration) (p : Workplace σ κ π) : Workplace σ κ π :=
  p.pause (.pause length)

def ask (p : Workplace σ κ π) (node : Nat) (statement : Statement) :
    Workplace σ κ π × Answer :=
  match p.connect node with
  | (p, .error e) => (p, .error e)
  | (p, .ok session) =>
    match ((p.launchStatement none statement session).await none).collect none with
    | (some (.statement _ answer), p) => (p, answer)
    | (_, p) => (p, .error .connectionClosed)

def setUp (config : Config) (p : Workplace σ κ π) : Workplace σ κ π × Except RunError Reply :=
  Retry.keepTrying config.setupTries "initdb" (ask · 0 (.create config.accounts))
    (pause config.setupDelay) p

def new (config : Config) (p : Workplace σ κ π) :
    Workplace σ κ π × Except RunError (Client σ κ π) :=
  match config.fault? with
  | some fault => (p, .error (.config fault))
  | none =>
    if Store.size p.shared.store = 0 then (p, .error (.config .noNodesExposed))
    else
      let (p, result) := setUp config p
      (p, result.map fun _ => { config, workplace := p })

def isRunning (c : Client σ κ π) : Bool := c.worker.any (·.isRunning)

def launch : Action (Client σ κ π) Unit := do
  let c ← get
  if c.worker.isSome then throw .alreadyRunning
  let (worker, workplace) ← liftM (Worker.spawn c.config c.workplace)
  set { c with worker := some worker, workplace }

def withWorker {α : Type} (use : Worker → Workplace σ κ π →
    Worker × Workplace σ κ π × Except RunError α) : Action (Client σ κ π) α := fun c =>
  match c.worker with
  | none => (.error .notRunning, c)
  | some worker =>
    let (worker, workplace, result) := use worker c.workplace
    (result, { c with worker := some worker, workplace })

def collect : Action (Client σ κ π) Snapshot := withWorker Worker.requestStatus

/-- Ends the workload. Its worker is gone then, also if it broke down. -/
def stop : Action (Client σ κ π) WorkerReport := fun c =>
  let (result, c) := withWorker Worker.stop c
  (result, { c with worker := none })

def askAll (statement : Statement) (context : String) :
    List Nat → Action (Client σ κ π) (List Reply)
  | [] => return []
  | node :: rest => do
    let reply ← fun c =>
      let (workplace, answer) := ask c.workplace node statement
      let context := context ++ " of node " ++ (node + 1).repr
      (answer.mapError (.store context), { c with workplace })
    let replies ← askAll statement context rest
    return reply :: replies

def nodes : Action (Client σ κ π) (List Nat) := return List.range (← get).nodeCount

def isDataIdentical : Action (Client σ κ π) Bool := do
  match ← askAll .digest "digest" (← nodes) with
  | [] => return false
  | first :: rest => return rest.all (· == first)

def prepared : Action (Client σ κ π) Nat := do
  let replies ← askAll .prepared "prepared transactions" (← nodes)
  return (replies.map Reply.count).foldl (· + ·) 0

def controls : Controls (Client σ κ π) where
  rest length c := { c with workplace := pause length c.workplace }
  collect := collect
  stop := stop
  isIdentical := isDataIdentical
  prepared := prepared

instance [FaultTarget σ] : FaultTarget (Client σ κ π) where
  inject fault c :=
    let (store, result) := FaultTarget.inject fault c.store
    ({ c with workplace.shared.store := store }, result)

def runSuite (suite : Suite (Client σ κ π)) : Action (Client σ κ π) SuiteReport := do
  let c ← get
  suite.run controls c.config.timings c.nodeCount

end Client

end LedgerDrill
