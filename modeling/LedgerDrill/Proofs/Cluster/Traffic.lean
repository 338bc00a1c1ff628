import LedgerDrill.Proofs.Cluster.Replication
import LedgerDrill.Cluster.Session

/-!
Any number of sessions on a cluster, each with at most one statement under way. Sessions, faults and new
connections take their steps in any order. `calls` holds everything that was asked of the cluster so
far, and `history` every statement that was answered.
-/

namespace LedgerDrill.Cluster

/-! ## The calls of a statement -/

def startCalls (s : Session) : Statement → List Call
  | .commit => if s.closed = false ∧ s.status = .inTransaction then [.takeNumber] else []
  | _ => []

def executeCalls (c : Cluster) (s : Session) : Statement → List Call
  | .begin => [.rowExists s.node s.epoch 0]
  | .add uid _ =>
    .rowExists s.node s.epoch uid ::
      match c.rowExists s.node s.epoch uid with
      | .ok (_, true) => if s.status = .inTransaction then [] else [.takeNumber]
      | _ => []
  | .commit | .rollback => []
  | .total => [.total s.node s.epoch]
  | .create n => [.createAccounts s.node s.epoch n]
  | .digest => [.digest s.node s.epoch]
  | .prepared => [.preparedOn s.node s.epoch]

def finishCalls (id : TransactionId) : Except StoreError Unit → List Call
  | .error (.query _) => [.abortPrepared id]
  | _ => []

def tornCalls (c : Cluster) (s : Session) (id : TransactionId) : List Write → List Call
  | [] => []
  | write :: rest =>
    .commitPrepared s.epoch id [write] ::
      match (c.commitPrepared s.epoch id [write]).2, rest with
      | .ok (), _ :: _ => []
      | result, _ => finishCalls id result

def applyCalls (c : Cluster) (s : Session) (id : TransactionId) (writes : List Write) :
    List Call :=
  if c.settings.torn then tornCalls c s id writes
  else .commitPrepared s.epoch id writes ::
    finishCalls id (c.commitPrepared s.epoch id writes).2

/-- The calls that a statement makes when it goes on where it waits. -/
def Waiting.calls (c : Cluster) (s : Session) : Waiting → List Call
  | .reaching statement => executeCalls c s statement
  | .preparing id writes _ =>
    .prepare s.epoch id ::
      match c.prepare s.epoch id with
      | .error _ => []
      | .ok c => if 0 < c.settings.commitDelay then [] else applyCalls c s id writes
  | .applying id writes _ => applyCalls c s id writes
  | .tearing id writes _ => tornCalls c s id writes

section
variable {c : Cluster} {s : Session} {call : Call} {id : TransactionId} {writes : List Write}

def Call.isInquiry : Call → Bool
  | .openSession .. | .takeNumber | .rowExists .. | .total .. | .digest .. | .preparedOn .. => true
  | .prepare .. | .commitPrepared .. | .abortPrepared .. | .createAccounts .. | .fault .. => false

theorem Call.change?_of_isInquiry (inquiry : call.isInquiry = true) : call.change? = none := by
  cases call <;> first | rfl | contradiction

theorem isInquiry_startCalls {statement : Statement} (member : call ∈ startCalls s statement) :
    call.isInquiry = true := by
  unfold startCalls at member
  split at member
  · split at member
    · cases List.mem_singleton.mp member
      rfl
    · contradiction
  · contradiction

theorem isInquiry_executeCalls {statement : Statement} (notCreate : ∀ n, statement ≠ .create n)
    (member : call ∈ executeCalls c s statement) : call.isInquiry = true := by
  cases statement with
  | create n => exact absurd rfl (notCreate n)
  | add uid delta =>
      rcases List.mem_cons.mp member with rfl | member
      · rfl
      -- The number is only taken for a row that was found outside of a transaction.
      · split at member
        · split at member
          · contradiction
          · cases List.mem_singleton.mp member
            rfl
        · contradiction
  | commit | rollback => contradiction
  | begin | total | digest | prepared =>
      cases List.mem_singleton.mp member
      rfl

theorem mem_finishCalls {result : Except StoreError Unit} (member : call ∈ finishCalls id result) :
    call = .abortPrepared id := by
  unfold finishCalls at member
  split at member
  · exact List.mem_singleton.mp member
  · contradiction

theorem mem_tornCalls (member : call ∈ tornCalls c s id writes) :
    call = .abortPrepared id ∨ ∃ part, call = .commitPrepared s.epoch id part := by
  cases writes with
  | nil => cases member
  | cons write rest =>
      simp only [tornCalls] at member
      rcases List.mem_cons.mp member with rfl | member
      · exact Or.inr ⟨[write], rfl⟩
      · split at member
        · contradiction
        · exact Or.inl (mem_finishCalls member)

theorem mem_applyCalls (member : call ∈ applyCalls c s id writes) :
    call = .abortPrepared id ∨ ∃ part, call = .commitPrepared s.epoch id part := by
  unfold applyCalls at member
  split at member
  · exact mem_tornCalls member
  · rcases List.mem_cons.mp member with rfl | member
    · exact Or.inr ⟨writes, rfl⟩
    · exact Or.inl (mem_finishCalls member)

end

namespace Ledger

variable {c : Cluster} {s : Session} {changes : List Change}

theorem after_append (l : Ledger) (first second : List Call) :
    l.after (first ++ second) = (l.after first).after second := by
  simp [after]

@[simp] theorem after_nil (l : Ledger) : l.after [] = l := rfl

@[simp] theorem after_cons (l : Ledger) (call : Call) (rest : List Call) :
    l.after (call :: rest) = (l.call call).after rest := rfl

@[simp] theorem cluster_call (l : Ledger) (call : Call) :
    (l.call call).cluster = (l.cluster.call call).1 := rfl

theorem after_related {R : Cluster → Cluster → Prop} (refl : ∀ c, R c c)
    (trans : ∀ {c c' c''}, R c c' → R c' c'' → R c c'') {calls : List Call}
    (each : ∀ c, ∀ call ∈ calls, R c (c.call call).1) (l : Ledger) : R l.cluster (l.after calls).cluster := by
  induction calls generalizing l with
  | nil => exact refl _
  | cons call rest ih =>
      have first := each l.cluster call List.mem_cons_self
      exact trans first (ih (fun c other member => each c other (List.mem_cons_of_mem _ member)) (l.call call))

theorem cluster_startCalls (statement : Statement) :
    (after ⟨c, changes⟩ (startCalls s statement)).cluster =
      (startStatement statement c s).store := by
  cases statement with
  | commit =>
      cases closed : s.closed with
      | true => simp [startCalls, startStatement, answered, closed]
      | false =>
          cases status : s.status <;>
            simp [startCalls, startStatement, answered, closed, status, beginCommit, waitingAt,
              Cluster.call]
  | rollback => simp only [startCalls, startStatement, after_nil]; split <;> rfl
  | begin | add _ _ | total | create _ | digest | prepared =>
      simp only [startCalls, startStatement, after_nil]
      split <;> rfl

theorem cluster_executeCalls (statement : Statement) :
    (after ⟨c, changes⟩ (executeCalls c s statement)).cluster = (execute c s statement).store := by
  cases statement with
  | begin =>
      simp only [executeCalls, execute, after_cons, after_nil, cluster_call, Cluster.call]
      cases c.rowExists s.node s.epoch 0 <;> rfl
  | add uid delta =>
      simp only [executeCalls, execute, after_cons, Ledger.call, Cluster.call]
      cases c.rowExists s.node s.epoch uid with
      | error e => rfl
      | ok answer =>
          obtain ⟨c', isFound⟩ := answer
          cases isFound with
          | false => rfl
          | true =>
              simp only
              split <;> rfl
  | commit | rollback => rfl
  | total =>
      simp only [executeCalls, execute, after_cons, after_nil, cluster_call, Cluster.call]
      cases c.total s.node s.epoch <;> rfl
  | create n =>
      simp only [executeCalls, execute, after_cons, after_nil, cluster_call, Cluster.call]
      cases c.createAccounts s.node s.epoch n <;> rfl
  | digest =>
      simp only [executeCalls, execute, after_cons, after_nil, cluster_call, Cluster.call]
      cases c.digest s.node s.epoch <;> rfl
  | prepared =>
      simp only [executeCalls, execute, after_cons, after_nil, cluster_call, Cluster.call]
      cases c.preparedOn s.node s.epoch <;> rfl

theorem cluster_finishCalls (id : TransactionId) (reply : Reply)
    (result : Except StoreError Unit) :
    (after ⟨c, changes⟩ (finishCalls id result)).cluster =
      (finishCommit c s id reply result).store := by
  cases result with
  | ok done => rfl
  | error e => cases e <;> rfl

theorem cluster_tornCalls (id : TransactionId) (writes : List Write) (reply : Reply) :
    (after ⟨c, changes⟩ (tornCalls c s id writes)).cluster =
      (applyTorn c s id writes reply).store := by
  cases writes with
  | nil => rfl
  | cons write rest =>
      simp only [tornCalls, applyTorn, after_cons, Ledger.call, Cluster.call]
      cases (c.commitPrepared s.epoch id [write]).2 with
      | error e => exact cluster_finishCalls id reply (.error e)
      | ok done => cases rest <;> rfl

theorem cluster_applyCalls (id : TransactionId) (writes : List Write) (reply : Reply) :
    (after ⟨c, changes⟩ (applyCalls c s id writes)).cluster =
      (applyWrites c s id writes reply).store := by
  unfold applyCalls applyWrites
  split
  · exact cluster_tornCalls id writes reply
  · simp only [after_cons, Ledger.call, Cluster.call]
    exact cluster_finishCalls id reply _

theorem cluster_calls (w : Waiting) :
    (after ⟨c, changes⟩ (w.calls c s)).cluster = (resumeStatement w c s).store := by
  cases w with
  | reaching statement => exact cluster_executeCalls statement
  | preparing id writes reply =>
      simp only [Waiting.calls, resumeStatement, after_cons, Ledger.call, Cluster.call]
      cases c.prepare s.epoch id with
      | error e => rfl
      | ok c' =>
          simp only
          split
          · rfl
          · exact cluster_applyCalls id writes reply
  | applying id writes reply => exact cluster_applyCalls id writes reply
  | tearing id writes reply => exact cluster_tornCalls id writes reply

end Ledger

/-! ## Sessions in any order -/

structure Line where
  session : Session
  pending : Option (Statement × Waiting) := none
deriving DecidableEq

def Line.ofTurn (statement : Statement) (turn : SessionTurn) : Line :=
  match turn.next with
  | .answered _ => ⟨turn.session, none⟩
  | .waiting _ w => ⟨turn.session, some (statement, w)⟩

theorem Line.pending_ofTurn {statement statement' : Statement} {turn : SessionTurn} {w : Waiting}
    (pending : (Line.ofTurn statement turn).pending = some (statement', w)) :
    statement = statement' ∧ ∃ latency, turn.next = .waiting latency w := by
  unfold Line.ofTurn at pending
  split at pending
  · cases pending
  · next latency w' next =>
      cases pending
      exact ⟨rfl, latency, next⟩

structure Exchange where
  line : Nat
  statement : Statement
  answer : Answer

structure Traffic where
  cluster : Cluster
  lines : List Line := []
  calls : List Call := []
  /-- Newest first. -/
  history : List Exchange := []

namespace Traffic

inductive Move
  | connect (node : Nat)
  /-- Starts a statement on a session that has none under way. -/
  | issue (line : Nat) (statement : Statement)
  | resume (line : Nat)
  | fault (fault : Fault)

def answers (line : Nat) (statement : Statement) (turn : SessionTurn) : List Exchange :=
  match turn.next with
  | .answered answer => [⟨line, statement, answer⟩]
  | .waiting .. => []

def take (t : Traffic) (line : Nat) (statement : Statement) (calls : List Call)
    (turn : SessionTurn) : Traffic :=
  { cluster := turn.store
    lines := t.lines.set line (Line.ofTurn statement turn)
    calls := t.calls ++ calls
    history := answers line statement turn ++ t.history }

def step (t : Traffic) : Move → Traffic
  | .connect node =>
    { t with
      lines := t.lines ++ match (Store.accept t.cluster node).2 with
        | .ok session => [⟨session, none⟩]
        | .error _ => []
      calls := t.calls ++ [.openSession node] }
  | .issue line statement =>
    match t.lines[line]? with
    | some ⟨session, none⟩ =>
      t.take line statement (startCalls session statement)
        (startStatement statement t.cluster session)
    | _ => t
  | .resume line =>
    match t.lines[line]? with
    | some ⟨session, some (statement, w)⟩ =>
      t.take line statement (w.calls t.cluster session) (resumeStatement w t.cluster session)
    | _ => t
  | .fault fault =>
    { t with cluster := (inject fault t.cluster).1, calls := t.calls ++ [.fault fault] }

def run (settings : Settings) (moves : List Move) : Traffic :=
  moves.foldl step { cluster := new settings }

def ledger (settings : Settings) (t : Traffic) : Ledger := Ledger.run settings t.calls

theorem lines_take {t : Traffic} {i j : Nat} {statement : Statement} {calls : List Call} {turn : SessionTurn}
    {line : Line} (located : (t.take i statement calls turn).lines[j]? = some line) :
    i = j ∧ line = Line.ofTurn statement turn ∨ i ≠ j ∧ t.lines[j]? = some line := by
  rw [Traffic.take, List.getElem?_set] at located
  split at located
  · next same =>
      split at located
      · exact Or.inl ⟨same, (Option.some.inj located).symm⟩
      · cases located
  · next apart => exact Or.inr ⟨apart, located⟩

/-- Where a line comes from: a step leaves it as it was, opens it, or takes the first or a later step of a
statement on it. -/
inductive Origin (t : Traffic) (i : Nat) : Move → Line → Prop
  | stays {move : Move} {line : Line} (before : t.lines[i]? = some line) : Origin t i move line
  | opens {node : Nat} {s : Session} (vacant : t.lines[i]? = none)
      (accepted : (Store.accept t.cluster node).2 = .ok s) : Origin t i (.connect node) ⟨s, none⟩
  | starts {s : Session} {statement : Statement} (before : t.lines[i]? = some ⟨s, none⟩) :
      Origin t i (.issue i statement) (Line.ofTurn statement (startStatement statement t.cluster s))
  | resumes {s : Session} {statement : Statement} {w : Waiting}
      (before : t.lines[i]? = some ⟨s, some (statement, w)⟩) :
      Origin t i (.resume i) (Line.ofTurn statement (resumeStatement w t.cluster s))

theorem lines_step {t : Traffic} {move : Move} {i : Nat} {line : Line}
    (located : (t.step move).lines[i]? = some line) : Origin t i move line := by
  cases move with
  | fault fault => exact .stays located
  | connect node =>
      simp only [Traffic.step, List.getElem?_append] at located
      split at located
      · exact .stays located
      · next beyond =>
          split at located
          · next s accepted =>
              obtain rfl := List.mem_singleton.mp (List.mem_of_getElem? located)
              exact .opens (List.getElem?_eq_none (Nat.le_of_not_lt beyond)) accepted
          · cases located
  | issue j statement =>
      simp only [Traffic.step] at located
      split at located
      · next s found =>
          rcases lines_take located with ⟨rfl, rfl⟩ | ⟨-, before⟩
          · exact .starts found
          · exact .stays before
      · exact .stays located
  | resume j =>
      simp only [Traffic.step] at located
      split at located
      · next s statement w found =>
          rcases lines_take located with ⟨rfl, rfl⟩ | ⟨-, before⟩
          · exact .resumes found
          · exact .stays before
      · exact .stays located

theorem ledger_take (settings : Settings) (t : Traffic) (line : Nat) (statement : Statement)
    (calls : List Call) (turn : SessionTurn) :
    (t.take line statement calls turn).ledger settings = (t.ledger settings).after calls := by
  simp [ledger, take, Ledger.run, Ledger.after_append]

theorem ledger_call (settings : Settings) (t t' : Traffic) (call : Call)
    (calls : t'.calls = t.calls ++ [call]) :
    t'.ledger settings = (t.ledger settings).call call := by
  simp [ledger, Ledger.run, calls, Ledger.after_append]

def Accounted (settings : Settings) (t : Traffic) : Prop :=
  (t.ledger settings).cluster = t.cluster

theorem Accounted.ledger_eq {settings : Settings} {t : Traffic} (accounted : t.Accounted settings) :
    t.ledger settings = ⟨t.cluster, (t.ledger settings).changes⟩ := by
  rw [← accounted]

theorem Accounted.step {settings : Settings} {t : Traffic} (accounted : t.Accounted settings)
    (move : Move) : (t.step move).Accounted settings := by
  unfold Accounted
  cases move with
  | connect node =>
      rw [ledger_call settings t _ (.openSession node) rfl, accounted.ledger_eq]
      rfl
  | issue line statement =>
      simp only [Traffic.step]
      split
      · rw [ledger_take, accounted.ledger_eq]
        exact Ledger.cluster_startCalls statement
      · exact accounted
  | resume line =>
      simp only [Traffic.step]
      split
      · rw [ledger_take, accounted.ledger_eq]
        exact Ledger.cluster_calls _
      · exact accounted
  | fault fault =>
      rw [ledger_call settings t _ (.fault fault) rfl, accounted.ledger_eq]
      rfl

end Traffic

end LedgerDrill.Cluster
