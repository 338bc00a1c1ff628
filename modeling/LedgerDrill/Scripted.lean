import LedgerDrill.Store

namespace LedgerDrill

structure Scripted where
  nodes : Nat := 0
  failingConnects : Nat := 0
  connects : Nat := 0
  connectDelay : Nat := 0
  statementDelay : Nat := 0
  slowNode : Option Nat := none
  totals : List Int := []
  rowScript : List Nat := []
  journal : List Statement := []
deriving DecidableEq

namespace Scripted

structure Session where
  node : Nat
  delay : Nat := 0
  rows : Nat := 1
  status : TxStatus := .idle
  updates : List (Nat × Int) := []
  commits : Nat := 0
  rollbacks : Nat := 0
deriving DecidableEq

/-- A statement waits at most once, before it does anything. -/
abbrev ScriptedTurn := Turn Scripted Session Statement

def write (s : Scripted) (statement : Statement) : Scripted :=
  { s with journal := statement :: s.journal }

def takeReply {α : Type} (default : α) : List α → α × List α
  | [] => (default, [])
  | reply :: rest => (reply, rest)

def execute (statement : Statement) (s : Scripted) (session : Session) : ScriptedTurn :=
  match statement with
  | .begin => ⟨s.write .begin, { session with status := .inTransaction }, .answered (.ok .done)⟩
  | .add uid delta =>
    let (rows, rowScript) := takeReply session.rows s.rowScript
    ⟨{ s with rowScript }, { session with updates := (uid, delta) :: session.updates },
      .answered (.ok (.rows rows))⟩
  | .commit =>
    if session.status = .inTransaction then
      ⟨s.write .commit, { session with status := .idle, commits := session.commits + 1 },
        .answered (.ok .done)⟩
    else ⟨s, session, .answered (.error .noTransaction)⟩
  | .rollback =>
    ⟨s.write .rollback, { session with status := .idle, rollbacks := session.rollbacks + 1 },
      .answered (.ok .done)⟩
  | .total =>
    let (balance, totals) := takeReply 0 s.totals
    ⟨{ s with totals }, session, .answered (.ok (.total balance))⟩
  | .create _ => ⟨s, session, .answered (.ok .done)⟩
  | .digest => ⟨s, session, .answered (.ok (.digest "scripted"))⟩
  | .prepared => ⟨s, session, .answered (.ok (.prepared 0))⟩

def start (statement : Statement) (s : Scripted) (session : Session) : ScriptedTurn :=
  match statement with
  | .begin | .add .. | .commit | .total =>
    ⟨s, session, .waiting (.fixed session.delay) statement⟩
  | _ => execute statement s session

/-- Every connection is counted when it begins, also one that is never made. -/
def dial (s : Scripted) (_node : Nat) : Scripted × Option Latency :=
  ({ s with connects := s.connects + 1 },
    if 0 < s.connectDelay then some (.fixed s.connectDelay) else none)

def delayOf (s : Scripted) (node : Nat) : Nat :=
  if s.slowNode.all (· == node) then s.statementDelay else 0

def accept (s : Scripted) (node : Nat) : Scripted × Except StoreError Session :=
  if 0 < s.failingConnects then
    ({ s with failingConnects := s.failingConnects - 1 },
      .error (.connectFailed node "Connection refused"))
  else (s, .ok { node, delay := s.delayOf node })

instance : Store Scripted Session Statement where
  size := nodes
  dial := dial
  accept := accept
  node := Session.node
  isClosed _ := false
  status := Session.status
  start := start
  resume := execute
  waits _ := 1

end Scripted

end LedgerDrill
