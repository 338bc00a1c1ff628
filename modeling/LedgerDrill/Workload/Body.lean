import LedgerDrill.LoopKind
import LedgerDrill.Store

namespace LedgerDrill.Workload

structure Watch where
  lastSeen : Int
deriving DecidableEq, Repr

/-- Sees a total, and tells whether it differs from the one before. A wrong total that stays is
told once. -/
def Watch.observe (w : Watch) (total : Int) : Watch × Bool := (⟨total⟩, total != w.lastSeen)

inductive Body
  | transfer (accounts : Nat) (amount : Int)
  | sumTotal (watch : Watch)
deriving DecidableEq, Repr

def transferStatements (source : Nat) (amount : Int) : List Statement :=
  [.begin, .add source (-amount), .add (source + 1) amount, .commit]

abbrev Ending := Except StoreError Bool

namespace Body

def kind : Body → LoopKind
  | transfer .. => .transfer
  | sumTotal _ => .sumTotal

/-- The account that a random number draws, such that it and the next one lie strictly between the
first account and the last. -/
def drawSource (accounts random : Nat) : Nat := 1 + random % (accounts - 2)

def plan (body : Body) (random : Nat) : Except StoreError (List Statement) :=
  match body with
  | transfer accounts amount =>
    if accounts < 3 then .error (.tooFewAccounts accounts)
    else .ok (transferStatements (drawSource accounts random) amount)
  | sumTotal _ => .ok [.total]

def conclude (body : Body) : Answer → Body × Ending
  | .error e => (body, .error e)
  | .ok (.total balance) =>
    match body with
    | sumTotal watch =>
      let (watch, changed) := watch.observe balance
      (sumTotal watch, .ok changed)
    | transfer .. => (body, .ok false)
  | .ok _ => (body, .ok false)

end Body

def checkReply (statement : Statement) (reply : Reply) : Answer :=
  match statement, reply with
  | .add uid _, .rows rows => if rows = 1 then .ok reply else .error (.rowCount uid rows)
  | _, _ => .ok reply

inductive Progress (π : Type)
  | answered (answer : Answer)
  | waiting (latency : Latency) (current : Statement) (point : π) (rest : List Statement)

structure PlanTurn (σ κ π : Type) where
  store : σ
  session : κ
  next : Progress π

section
variable {σ κ π : Type} [Store σ κ π]

def PlanTurn.ofTurn (current : Statement) (rest : List Statement) (turn : Turn σ κ π)
    (advance : Reply → σ → κ → PlanTurn σ κ π) : PlanTurn σ κ π :=
  match turn.next with
  | .waiting latency point => ⟨turn.store, turn.session, .waiting latency current point rest⟩
  | .answered answer =>
    match answer.bind (checkReply current) with
    | .error e => ⟨turn.store, turn.session, .answered (.error e)⟩
    | .ok reply => advance reply turn.store turn.session

omit [Store σ κ π] in
theorem PlanTurn.ofTurn_failed {current : Statement} {answer : Answer} {e : StoreError}
    (failed : answer.bind (checkReply current) = .error e) (rest : List Statement) (store : σ) (session : κ)
    (advance : Reply → σ → κ → PlanTurn σ κ π) :
    ofTurn current rest ⟨store, session, .answered answer⟩ advance = ⟨store, session, .answered (.error e)⟩ := by
  simp only [ofTurn, failed]

omit [Store σ κ π] in
theorem PlanTurn.ofTurn_passed {current : Statement} {answer : Answer} {reply : Reply}
    (passed : answer.bind (checkReply current) = .ok reply) (rest : List Statement) (store : σ) (session : κ)
    (advance : Reply → σ → κ → PlanTurn σ κ π) :
    ofTurn current rest ⟨store, session, .answered answer⟩ advance = advance reply store session := by
  simp only [ofTurn, passed]

def startPlan : List Statement → Reply → σ → κ → PlanTurn σ κ π
  | [], last, store, session => ⟨store, session, .answered (.ok last)⟩
  | current :: rest, _, store, session =>
    .ofTurn current rest (Store.start current store session) (startPlan rest)

def resumePlan (current : Statement) (point : π) (rest : List Statement) (store : σ)
    (session : κ) : PlanTurn σ κ π :=
  .ofTurn current rest (Store.resume point store session) (startPlan rest)

end

end LedgerDrill.Workload
