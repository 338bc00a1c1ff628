import LedgerDrill.Proofs.Cluster.Traffic
import LedgerDrill.Proofs.Workload.Transactions

namespace LedgerDrill

def StoreError.losesSession : StoreError → Bool
  | .connectionClosed | .connectFailed .. => true
  | _ => false

namespace Cluster

/-- A statement that was answered, with the session when it was sent and after the answer. -/
structure Talk where
  before : Session
  statement : Statement
  answer : Answer
  after : Session

structure Dialogue where
  session : Session
  /-- The statement under way, with the session when it was sent. -/
  pending : Option (Session × Statement × Waiting) := none
  /-- Newest first. -/
  talks : List Talk := []

namespace Dialogue

inductive Event
  | send (statement : Statement) (c : Cluster)
  | goOn (c : Cluster)
  | giveUp

def take (d : Dialogue) (before : Session) (statement : Statement) (turn : SessionTurn) : Dialogue :=
  match turn.next with
  | .answered answer =>
    { session := turn.session, talks := ⟨before, statement, answer, turn.session⟩ :: d.talks }
  | .waiting _ w => { d with session := turn.session, pending := some (before, statement, w) }

def step (d : Dialogue) : Event → Dialogue
  | .send statement c =>
    match d.pending with
    | none => d.take d.session statement (startStatement statement c d.session)
    | some _ => d
  | .goOn c =>
    match d.pending with
    | some (before, statement, w) => d.take before statement (resumeStatement w c d.session)
    | none => d
  | .giveUp => { d with pending := none }

def run (node epoch : Nat) (events : List Event) : Dialogue :=
  events.foldl step { session := { node, epoch } }

end Dialogue

variable {c : Cluster} {s before : Session} {statement : Statement} {answer : Answer} {e : StoreError}
variable {w : Waiting} {id : TransactionId} {writes : List Write} {reply : Reply}

/-! ## One statement -/

/-- The statement failed inside a transaction, and the session was not lost. -/
def Breaks (before : Session) (answer : Answer) : Prop :=
  before.status = .inTransaction ∧ ∃ e, answer = .error e ∧ e.losesSession = false

structure Concludes (before : Session) (statement : Statement) (answer : Answer) (s : Session) : Prop where
  blank : s.status = .idle → s.writes = []
  broken : s.status = .inError →
    s.closed = false ∧ (s = before ∧ answer = .error .inFailedTransaction ∨ Breaks before answer)
  ends : statement = .commit ∨ statement = .rollback → s.closed = false → s.status = .idle

inductive Halts (before : Session) (statement : Statement) : Session → Waiting → Prop
  | reaching (isOpen : before.closed = false) (notCommit : statement ≠ .commit)
      (able : statement = .rollback ∨ before.status ≠ .inError) :
      Halts before statement before (.reaching statement)
  | committing {s : Session} {w : Waiting} (isOpen : s.closed = false) (blank : s.writes = [])
      (able : s.status ≠ .inError) (beyond : ∀ statement, w ≠ .reaching statement) : Halts before statement s w

inductive Proceeds (before : Session) (statement : Statement) : SessionTurn → Prop
  | answered {c : Cluster} {s : Session} {answer : Answer} (concludes : Concludes before statement answer s) :
      Proceeds before statement ⟨c, s, .answered answer⟩
  | waiting {c : Cluster} {s : Session} {latency : Latency} {w : Waiting} (halts : Halts before statement s w) :
      Proceeds before statement ⟨c, s, .waiting latency w⟩

theorem fail_cases (s : Session) (e : StoreError) :
    e.losesSession = true ∧ s.fail e = { s with closed := true } ∨
    e.losesSession = false ∧
      s.fail e = { s with status := if s.status = .inTransaction then .inError else s.status } := by
  obtain ⟨node, epoch, status, closed, writes⟩ := s
  cases e <;> cases status <;> simp [Session.fail, StoreError.losesSession]

theorem proceeds_failed (blank : s.status = .idle → s.writes = []) (isOpen : s.closed = false)
    (able : s.status ≠ .inError) (notCommit : statement ≠ .commit) (notRollback : statement ≠ .rollback)
    (c : Cluster) (e : StoreError) : Proceeds s statement (failed c s e) := by
  have other : ¬ (statement = .commit ∨ statement = .rollback) := not_or.mpr ⟨notCommit, notRollback⟩
  apply Proceeds.answered
  rcases fail_cases s e with ⟨-, lost⟩ | ⟨stays, failed⟩
  · rw [lost]
    exact ⟨blank, fun broken => absurd broken able, fun ends => absurd ends other⟩
  · rw [failed]
    by_cases inside : s.status = .inTransaction
    · simp only [inside, ↓reduceIte]
      exact ⟨nofun, fun _ => ⟨isOpen, Or.inr ⟨inside, e, rfl, stays⟩⟩, fun ends => absurd ends other⟩
    · simp only [inside, ↓reduceIte]
      exact ⟨blank, fun broken => absurd broken able, fun ends => absurd ends other⟩

theorem concludes_endCommit (blank : s.writes = []) (able : s.closed = true → s.status ≠ .inError)
    (before : Session) (statement : Statement) (answer : Answer) :
    Concludes before statement answer s.endCommit := by
  unfold Session.endCommit
  split
  · next closed =>
      refine ⟨fun _ => blank, fun broken => absurd broken (able closed), fun _ isOpen => ?_⟩
      rw [closed] at isOpen
      cases isOpen
  · exact ⟨fun _ => blank, nofun, fun _ _ => rfl⟩

theorem concludes_failedCommit (blank : s.writes = []) (able : s.status ≠ .inError) (before : Session)
    (statement : Statement) (answer : Answer) (e : StoreError) (isOpen : s.closed = false) :
    Concludes before statement answer (s.fail e).endCommit := by
  rcases fail_cases s e with ⟨-, lost⟩ | ⟨-, failed⟩
  · exact concludes_endCommit (lost ▸ blank) (fun _ => lost ▸ able) before statement answer
  · refine concludes_endCommit (failed ▸ blank) (fun closed => ?_) before statement answer
    rw [failed, isOpen] at closed
    cases closed

theorem proceeds_finishCommit (blank : s.writes = []) (able : s.status ≠ .inError) (isOpen : s.closed = false)
    (before : Session) (statement : Statement) (c : Cluster) (id : TransactionId) (reply : Reply)
    (result : Except StoreError Unit) : Proceeds before statement (finishCommit c s id reply result) := by
  cases result with
  | ok => exact .answered (concludes_endCommit blank (fun _ => able) before statement _)
  | error e => exact .answered (concludes_failedCommit blank able before statement _ e isOpen)

theorem proceeds_puts {torn : Bool} {turn : SessionTurn} (blank : s.writes = []) (able : s.status ≠ .inError)
    (isOpen : s.closed = false) (before : Session) (statement : Statement)
    (puts : Puts c s id reply torn writes turn) : Proceeds before statement turn := by
  cases puts with
  | nothing => exact .answered (concludes_endCommit blank (fun _ => able) before statement _)
  | next => exact .waiting (.committing isOpen blank able fun _ reached => by cases reached)
  | last | whole => exact proceeds_finishCommit blank able isOpen before statement _ id reply _

theorem proceeds_execute (blank : s.status = .idle → s.writes = []) (isOpen : s.closed = false)
    (notCommit : statement ≠ .commit) (able : statement = .rollback ∨ s.status ≠ .inError) (c : Cluster) :
    Proceeds s statement (execute c s statement) := by
  have known := executes c s statement
  generalize execute c s statement = turn at known
  -- Besides a rollback nothing reaches the node while the transaction is broken.
  have still (other : statement ≠ .rollback) (c : Cluster) (answer : Answer) :
      Proceeds s statement (answered c s answer) :=
    .answered ⟨blank, fun broken => absurd broken (able.resolve_left other), fun ends => by
      rcases ends with rfl | rfl <;> contradiction⟩
  cases known with
  | refused reads =>
      have other : statement ≠ .rollback := fun same => by rw [same] at reads; cases reads
      exact proceeds_failed blank isOpen (able.resolve_left other) notCommit other c _
  | offline => exact proceeds_failed blank isOpen (able.resolve_left nofun) notCommit nofun c (offlineError s.node)
  | lost => exact proceeds_failed blank isOpen (able.resolve_left nofun) notCommit nofun c .connectionClosed
  | begins => exact .answered ⟨nofun, nofun, by simp⟩
  | buffers served present inside => exact .answered ⟨by simp [inside], by simp [inside], by simp⟩
  | misses | totals | digests | creates | counts => exact still nofun _ _
  | rollsBack => exact .answered ⟨fun _ => rfl, nofun, fun _ _ => rfl⟩
  | ends => contradiction
  | commits served present outside =>
      have sound := able.resolve_left nofun
      have idle : s.status = .idle := by cases status : s.status <;> simp_all
      exact .waiting (.committing isOpen (blank idle) sound fun _ reached => by cases reached)

theorem proceeds_start (blank : s.status = .idle → s.writes = [])
    (broken : s.status = .inError → s.closed = false) (statement : Statement) (c : Cluster) :
    Proceeds s statement (startStatement statement c s) := by
  have known := starts statement c s
  generalize startStatement statement c s = turn at known
  cases known with
  | closed isClosed =>
      refine .answered ⟨blank, fun isBroken => ?_, fun _ isOpen => ?_⟩
      · rw [broken isBroken] at isClosed
        cases isClosed
      · rw [isClosed] at isOpen
        cases isOpen
  | refused isOpen isBroken other =>
      exact .answered ⟨blank, fun _ => ⟨isOpen, Or.inl ⟨rfl, rfl⟩⟩, fun ends => (not_or.mpr other ends).elim⟩
  | idle isOpen outside =>
      exact .answered ⟨blank, by simp [outside], fun _ _ => outside⟩
  | gaveUp => exact .answered ⟨fun _ => rfl, nofun, fun _ _ => rfl⟩
  | commits isOpen inside =>
      exact .waiting (.committing isOpen rfl (by simp [inside]) fun _ reached => by cases reached)
  | sends isOpen notCommit able => exact .waiting (.reaching isOpen notCommit able)

theorem Halts.proceeds (halts : Halts before statement s w) (blank : s.status = .idle → s.writes = [])
    (c : Cluster) : Proceeds before statement (resumeStatement w c s) := by
  have known := resumes w c s
  generalize resumeStatement w c s = turn at known
  cases halts with
  | reaching isOpen notCommit able =>
      cases known with
      | reaching => exact proceeds_execute blank isOpen notCommit able c
  | committing isOpen empty able beyond =>
      cases known with
      | reaching statement => exact absurd rfl (beyond statement)
      | refused => exact .answered (concludes_failedCommit empty able before statement _ _ isOpen)
      | prepared => exact .waiting (.committing isOpen empty able fun _ reached => by cases reached)
      | goesOn _ puts | applying puts | tearing puts => exact proceeds_puts empty able isOpen before statement puts

/-! ## All statements -/

namespace Dialogue

/-- A statement failed inside a transaction, and all that was sent since then was refused. -/
def Broken (talks : List Talk) : Prop :=
  ∃ refused failure earlier, talks = refused ++ failure :: earlier ∧
    (∀ talk ∈ refused, talk.answer = .error .inFailedTransaction) ∧ Breaks failure.before failure.answer

structure Proper (d : Dialogue) : Prop where
  blank : d.session.status = .idle → d.session.writes = []
  broken : d.session.status = .inError → d.session.closed = false ∧ Broken d.talks
  ends : ∀ talk ∈ d.talks, talk.statement = .commit ∨ talk.statement = .rollback →
    talk.after.closed = false → talk.after.status = .idle
  waits : ∀ before statement w, d.pending = some (before, statement, w) →
    (before.status = .idle → before.writes = []) ∧ (before.status = .inError → Broken d.talks) ∧
      Halts before statement d.session w

variable {d : Dialogue}

theorem Broken.refused {talks : List Talk} (broken : Broken talks) {talk : Talk}
    (answer : talk.answer = .error .inFailedTransaction) : Broken (talk :: talks) := by
  obtain ⟨refused, failure, earlier, split, all, breaks⟩ := broken
  refine ⟨talk :: refused, failure, earlier, by rw [split]; rfl, ?_, breaks⟩
  intro other member
  rcases List.mem_cons.mp member with rfl | member
  · exact answer
  · exact all other member

theorem Proper.take (proper : d.Proper) (blank : before.status = .idle → before.writes = [])
    (broken : before.status = .inError → Broken d.talks) {turn : SessionTurn}
    (proceeds : Proceeds before statement turn) : (d.take before statement turn).Proper := by
  cases proceeds with
  | waiting halts =>
      refine ⟨?_, ?_, proper.ends, ?_⟩
      · cases halts with
        | reaching => exact blank
        | committing _ empty => exact fun _ => empty
      · cases halts with
        | reaching isOpen => exact fun isBroken => ⟨isOpen, broken isBroken⟩
        | committing _ _ able => exact fun isBroken => absurd isBroken able
      · rintro _ _ _ ⟨⟩
        exact ⟨blank, broken, halts⟩
  | @answered c s answer concludes =>
      refine ⟨concludes.blank, fun isBroken => ?_, fun talk member => ?_, fun _ _ _ pending => by cases pending⟩
      · obtain ⟨isOpen, ⟨rfl, refused⟩ | breaks⟩ := concludes.broken isBroken
        · exact ⟨isOpen, (broken isBroken).refused refused⟩
        · exact ⟨isOpen, [], _, d.talks, rfl, fun _ none => absurd none List.not_mem_nil, breaks⟩
      · rcases List.mem_cons.mp member with rfl | earlier
        · exact concludes.ends
        · exact proper.ends talk earlier

theorem Proper.step (proper : d.Proper) (event : Event) : (d.step event).Proper := by
  cases event with
  | giveUp => exact ⟨proper.blank, proper.broken, proper.ends, fun _ _ _ pending => by cases pending⟩
  | send statement c =>
      simp only [Dialogue.step]
      split
      · refine proper.take proper.blank (fun isBroken => (proper.broken isBroken).2) ?_
        exact proceeds_start proper.blank (fun isBroken => (proper.broken isBroken).1) statement c
      · exact proper
  | goOn c =>
      simp only [Dialogue.step]
      split
      · next before statement w pending =>
          obtain ⟨blank, broken, halts⟩ := proper.waits before statement w pending
          exact proper.take blank broken (halts.proceeds proper.blank c)
      · exact proper

theorem proper_run (node epoch : Nat) (events : List Event) : (run node epoch events).Proper := by
  have opened : Proper { session := { node, epoch } } :=
    ⟨fun _ => rfl, by simp, by simp, fun _ _ _ pending => by cases pending⟩
  exact List.foldlRecOn (motive := Proper) events step opened fun _ proper event _ => proper.step event

theorem Proper.idle (proper : d.Proper) (lost : d.session.closed = true) : d.pending = none := by
  cases pending : d.pending with
  | none => rfl
  | some sent =>
      obtain ⟨before, statement, w⟩ := sent
      obtain ⟨-, -, halts⟩ := proper.waits before statement w pending
      cases halts with
      | reaching isOpen | committing isOpen => rw [lost] at isOpen; cases isOpen

theorem start_lost (lost : s.closed = true) (statement : Statement) (c : Cluster) :
    startStatement statement c s = answered c s (.error .connectionClosed) ∧ startCalls s statement = [] := by
  constructor
  · cases statement <;> simp [startStatement, Session.refusal?, lost]
  · cases statement <;> simp [startCalls, lost]

theorem start_broken (isOpen : s.closed = false) (broken : s.status = .inError) (statement : Statement)
    (c : Cluster) (notCommit : statement ≠ .commit) (notRollback : statement ≠ .rollback) :
    startStatement statement c s = answered c s (.error .inFailedTransaction) ∧ startCalls s statement = [] := by
  constructor
  · cases statement <;> simp_all [startStatement, Session.refusal?]
  · cases statement <;> simp_all [startCalls]

theorem commit_broken (isOpen : s.closed = false) (broken : s.status = .inError) (c : Cluster) :
    startStatement .commit c s =
      answered c { s with status := .idle, writes := [] } (.error .inFailedTransaction) ∧
    startCalls s .commit = [] := by
  constructor
  · simp [startStatement, isOpen, broken]
  · simp [startCalls, broken]

theorem closed_step (proper : d.Proper) (lost : d.session.closed = true) (event : Event) :
    (d.step event).session.closed = true := by
  have idle := proper.idle lost
  cases event with
  | giveUp => exact lost
  | goOn c => simp only [Dialogue.step, idle, lost]
  | send statement c =>
      simp only [Dialogue.step, idle, (start_lost lost statement c).1]
      exact lost

theorem closed_foldl (proper : d.Proper) (lost : d.session.closed = true) (later : List Event) :
    (later.foldl step d).session.closed = true := by
  induction later generalizing d with
  | nil => exact lost
  | cons event rest ih => exact ih (proper.step event) (closed_step proper lost event)

/-- Whatever state every step of a session finds its cluster in. A session that was lost stays lost, and on it
nothing is asked of the cluster any more. It is in a broken transaction only after a statement that failed inside a
transaction with another error; there all but a commit and a rollback is refused and changes nothing, and a commit
ends the transaction without any write. After a commit or a rollback an open session is idle, and an idle session has
nothing to write. -/
theorem session_keeps_protocol (node epoch : Nat) (events : List Event) :
    let d := run node epoch events
    (d.session.closed = true →
      (∀ later : List Event, (later.foldl step d).session.closed = true) ∧ d.pending = none ∧
      ∀ statement c, startStatement statement c d.session =
        answered c d.session (.error .connectionClosed) ∧ startCalls d.session statement = []) ∧
    (d.session.status = .inError →
      Broken d.talks ∧
      (∀ statement c, statement ≠ .commit → statement ≠ .rollback →
        startStatement statement c d.session = answered c d.session (.error .inFailedTransaction) ∧
          startCalls d.session statement = []) ∧
      ∀ c, startStatement .commit c d.session =
          answered c { d.session with status := .idle, writes := [] } (.error .inFailedTransaction) ∧
        startCalls d.session .commit = []) ∧
    (∀ talk ∈ d.talks, talk.statement = .commit ∨ talk.statement = .rollback →
      talk.after.closed = false → talk.after.status = .idle) ∧
    (d.session.status = .idle → d.session.writes = []) := by
  intro d
  have proper : d.Proper := proper_run node epoch events
  refine ⟨fun lost => ?_, fun isBroken => ?_, proper.ends, proper.blank⟩
  · exact ⟨closed_foldl proper lost, proper.idle lost, start_lost lost⟩
  · obtain ⟨isOpen, broken⟩ := proper.broken isBroken
    exact ⟨broken, start_broken isOpen isBroken, commit_broken isOpen isBroken⟩

/-- A transaction is broken by a read on a node that finds no fresh replica, and its commit is refused. -/
example :
    let stale : Cluster := { settings := {}, replicas := List.replicate 3 { stale := true } }
    let read : List Event := [.send .begin (new {}), .goOn (new {}), .send .total (new {}), .goOn stale]
    (run 0 0 read).session.status = .inError ∧
      (run 0 0 (read ++ [.send .commit (new {})])).talks.map (·.answer.toBool) = [false, false, true] := by
  decide

end Dialogue

end Cluster

end LedgerDrill
