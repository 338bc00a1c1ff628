import LedgerDrill.Cluster.Session
import LedgerDrill.Proofs.Cluster.Replication

namespace LedgerDrill.Cluster

variable {c : Cluster} {s : Session} {statement : Statement}

def readsAccounts : Statement → Bool
  | .begin | .add .. | .total | .create _ | .digest => true
  | .commit | .rollback | .prepared => false

def offlineError (node : Nat) : StoreError :=
  .query ("node " ++ (node + 1).repr ++ " is not online: cluster has no quorum")

inductive Executes (c : Cluster) (s : Session) : Statement → SessionTurn → Prop
  | refused {statement : Statement} {e : StoreError} (reads : readsAccounts statement = true)
      (error : c.serve s.node s.epoch = .error e) : Executes c s statement (failed c s e)
  | begins {c' : Cluster} (served : c.serve s.node s.epoch = .ok c') :
      Executes c s .begin (answered c' { s with writes := [], status := .inTransaction } (.ok .done))
  | misses {c' : Cluster} {uid : Nat} {delta : Int} (served : c.serve s.node s.epoch = .ok c')
      (absent : (c'.accountsOf s.node).contains uid = false) :
      Executes c s (.add uid delta) (answered c' s (.ok (.rows 0)))
  | buffers {c' : Cluster} {uid : Nat} {delta : Int} (served : c.serve s.node s.epoch = .ok c')
      (present : (c'.accountsOf s.node).contains uid = true) (inside : s.status = .inTransaction) :
      Executes c s (.add uid delta)
        (answered c' { s with writes := s.writes ++ [⟨uid, delta⟩] } (.ok (.rows 1)))
  | commits {c' : Cluster} {uid : Nat} {delta : Int} (served : c.serve s.node s.epoch = .ok c')
      (present : (c'.accountsOf s.node).contains uid = true) (outside : s.status ≠ .inTransaction) :
      Executes c s (.add uid delta) (beginCommit c' s [⟨uid, delta⟩] (.rows 1))
  | totals {c' : Cluster} (served : c.serve s.node s.epoch = .ok c') :
      Executes c s .total (answered c' s (.ok (.total (c'.accountsOf s.node).total)))
  | digests {c' : Cluster} (served : c.serve s.node s.epoch = .ok c') :
      Executes c s .digest (answered c' s (.ok (.digest (c'.accountsOf s.node).digest)))
  | creates {c' : Cluster} {n : Nat} (served : c.serve s.node s.epoch = .ok c')
      (quorum : c'.hasQuorum s.node = true) :
      Executes c s (.create n) (answered (c'.replicate s.node fun _ => .seed n) s (.ok .done))
  | offline {c' : Cluster} {n : Nat} (served : c.serve s.node s.epoch = .ok c')
      (alone : c'.hasQuorum s.node = false) :
      Executes c s (.create n) (failed c s (offlineError s.node))
  | counts {count : Nat} (counted : c.preparedOn s.node s.epoch = .ok count) :
      Executes c s .prepared (answered c s (.ok (.prepared count)))
  | lost (isClosed : c.isOpen s.node s.epoch = false) :
      Executes c s .prepared (failed c s .connectionClosed)
  | rollsBack :
      Executes c s .rollback (answered c { s with writes := [], status := .idle } (.ok .done))
  | ends : Executes c s .commit (answered c s (.ok .done))

theorem executes_add (c : Cluster) (s : Session) (uid : Nat) (delta : Int) :
    Executes c s (.add uid delta) (execute c s (.add uid delta)) := by
  simp only [execute, rowExists]
  cases served : c.serve s.node s.epoch with
  | error e => exact .refused rfl served
  | ok c' =>
      cases found : (c'.accountsOf s.node).contains uid with
      | false =>
          simp only [bind, Except.bind, pure, Except.pure, found]
          exact .misses served found
      | true =>
          simp only [bind, Except.bind, pure, Except.pure, found]
          split
          · next inside => exact .buffers served found inside
          · next outside => exact .commits served found outside

theorem executes (c : Cluster) (s : Session) (statement : Statement) :
    Executes c s statement (execute c s statement) := by
  cases statement with
  | add uid delta => exact executes_add c s uid delta
  | commit => exact .ends
  | rollback => exact .rollsBack
  | begin =>
      simp only [execute, rowExists]
      cases served : c.serve s.node s.epoch with
      | error e => exact .refused rfl served
      | ok c' => exact .begins served
  | total =>
      simp only [execute, Cluster.total]
      cases served : c.serve s.node s.epoch with
      | error e => exact .refused rfl served
      | ok c' => exact .totals served
  | digest =>
      simp only [execute, Cluster.digest]
      cases served : c.serve s.node s.epoch with
      | error e => exact .refused rfl served
      | ok c' => exact .digests served
  | create n =>
      simp only [execute, createAccounts]
      cases served : c.serve s.node s.epoch with
      | error e => exact .refused rfl served
      | ok c' =>
          cases quorum : c'.hasQuorum s.node with
          | false =>
              simp only [bind, Except.bind, quorum]
              exact .offline served quorum
          | true =>
              simp only [bind, Except.bind, quorum]
              exact .creates served quorum
  | prepared =>
      simp only [execute]
      cases counted : c.preparedOn s.node s.epoch with
      | ok count => exact .counts counted
      | error e =>
          unfold preparedOn at counted
          split at counted
          · cases counted
          · next isClosed =>
              cases counted
              exact .lost (Bool.eq_false_iff.mpr isClosed)

inductive Starts (c : Cluster) (s : Session) : Statement → SessionTurn → Prop
  | closed {statement : Statement} (isClosed : s.closed = true) :
      Starts c s statement (answered c s (.error .connectionClosed))
  | refused {statement : Statement} (isOpen : s.closed = false) (broken : s.status = .inError)
      (other : statement ≠ .commit ∧ statement ≠ .rollback) :
      Starts c s statement (answered c s (.error .inFailedTransaction))
  | idle (isOpen : s.closed = false) (outside : s.status = .idle) :
      Starts c s .commit (answered c s (.error .noTransaction))
  | gaveUp (isOpen : s.closed = false) (broken : s.status = .inError) :
      Starts c s .commit
        (answered c { s with status := .idle, writes := [] } (.error .inFailedTransaction))
  | commits (isOpen : s.closed = false) (inside : s.status = .inTransaction) :
      Starts c s .commit (beginCommit c { s with writes := [] } s.writes .done)
  | sends {statement : Statement} (isOpen : s.closed = false) (notCommit : statement ≠ .commit)
      (able : statement = .rollback ∨ s.status ≠ .inError) :
      Starts c s statement (waitingAt c s c.settings.roundTrip (.reaching statement))

theorem starts (statement : Statement) (c : Cluster) (s : Session) :
    Starts c s statement (startStatement statement c s) := by
  obtain ⟨node, epoch, status, closed, writes⟩ := s
  cases closed with
  | true => cases statement <;> exact .closed rfl
  | false =>
      cases statement with
      | commit =>
          cases status with
          | idle => exact .idle rfl rfl
          | inTransaction => exact .commits rfl rfl
          | inError => exact .gaveUp rfl rfl
      | rollback => exact .sends rfl nofun (Or.inl rfl)
      | begin | add _ _ | total | create _ | digest | prepared =>
          cases status with
          | inError => exact .refused rfl rfl ⟨nofun, nofun⟩
          | idle | inTransaction => exact .sends rfl nofun (Or.inr nofun)

/-! ## Commits -/

/-- How a commit goes on where it puts its writes, all at once or torn into single ones. -/
inductive Puts (c : Cluster) (s : Session) (id : TransactionId) (reply : Reply) :
    Bool → List Write → SessionTurn → Prop
  | nothing : Puts c s id reply true [] (answered c s.endCommit (.ok reply))
  | next {write next : Write} {rest : List Write} (applied : (c.commitPrepared s.epoch id [write]).2 = .ok ()) :
      Puts c s id reply true (write :: next :: rest)
        (waitingAt (c.commitPrepared s.epoch id [write]).1 s
          (c.commitPrepared s.epoch id [write]).1.settings.roundTrip (.tearing id (next :: rest) reply))
  | last {write : Write} {rest : List Write} (ends : (c.commitPrepared s.epoch id [write]).2 = .ok () → rest = []) :
      Puts c s id reply true (write :: rest) (finishCommit (c.commitPrepared s.epoch id [write]).1 s id reply
        (c.commitPrepared s.epoch id [write]).2)
  | whole {writes : List Write} : Puts c s id reply false writes
      (finishCommit (c.commitPrepared s.epoch id writes).1 s id reply (c.commitPrepared s.epoch id writes).2)

theorem puts_applyTorn (c : Cluster) (s : Session) (id : TransactionId) (writes : List Write) (reply : Reply) :
    Puts c s id reply true writes (applyTorn c s id writes reply) := by
  cases writes with
  | nil => exact .nothing
  | cons write rest =>
      simp only [applyTorn]
      split
      · next applied => exact .next applied
      · next ends =>
          refine .last fun applied => Classical.byContradiction fun some => ?_
          obtain ⟨next, later, same⟩ := List.exists_cons_of_ne_nil some
          exact ends next later applied same

theorem puts_applyWrites (c : Cluster) (s : Session) (id : TransactionId) (writes : List Write) (reply : Reply) :
    Puts c s id reply c.settings.torn writes (applyWrites c s id writes reply) := by
  unfold applyWrites
  cases c.settings.torn with
  | true => exact puts_applyTorn c s id writes reply
  | false => exact .whole

inductive Resumes (c : Cluster) (s : Session) : Waiting → SessionTurn → Prop
  | reaching (statement : Statement) : Resumes c s (.reaching statement) (execute c s statement)
  | refused {id : TransactionId} {writes : List Write} {reply : Reply} {e : StoreError}
      (error : c.prepare s.epoch id = .error e) :
      Resumes c s (.preparing id writes reply) (answered c (s.fail e).endCommit (.error e))
  | prepared {id : TransactionId} {writes : List Write} {reply : Reply} {c' : Cluster}
      (prepared : c.prepare s.epoch id = .ok c') (slow : 0 < c'.settings.commitDelay) :
      Resumes c s (.preparing id writes reply)
        (waitingAt c' s (.fixed c'.settings.commitDelay) (.applying id writes reply))
  | goesOn {id : TransactionId} {writes : List Write} {reply : Reply} {c' : Cluster} {turn : SessionTurn}
      (prepared : c.prepare s.epoch id = .ok c') (puts : Puts c' s id reply c'.settings.torn writes turn) :
      Resumes c s (.preparing id writes reply) turn
  | applying {id : TransactionId} {writes : List Write} {reply : Reply} {turn : SessionTurn}
      (puts : Puts c s id reply c.settings.torn writes turn) : Resumes c s (.applying id writes reply) turn
  | tearing {id : TransactionId} {writes : List Write} {reply : Reply} {turn : SessionTurn}
      (puts : Puts c s id reply true writes turn) : Resumes c s (.tearing id writes reply) turn

theorem resumes (w : Waiting) (c : Cluster) (s : Session) : Resumes c s w (resumeStatement w c s) := by
  cases w with
  | reaching statement => exact .reaching statement
  | applying id writes reply => exact .applying (puts_applyWrites c s id writes reply)
  | tearing id writes reply => exact .tearing (puts_applyTorn c s id writes reply)
  | preparing id writes reply =>
      simp only [resumeStatement]
      cases prepared : c.prepare s.epoch id with
      | error e => exact .refused prepared
      | ok c' =>
          simp only
          split
          · next slow => exact .prepared prepared slow
          · exact .goesOn prepared (puts_applyWrites c' s id writes reply)

theorem finishCommit_next (c : Cluster) (s : Session) (id : TransactionId) (reply : Reply)
    (result : Except StoreError Unit) :
    (finishCommit c s id reply result).next = .answered (result.map fun _ => reply) := by
  cases result <;> rfl

/-! ## New sessions -/

theorem accept_cases (c : Cluster) (node : Nat) :
    (∃ e, c.openSession node = .error e ∧ Store.accept c node = (c, .error e)) ∨
    ∃ epoch, Store.accept c node = (c, .ok ({ node, epoch } : Session)) := by
  cases opened : c.openSession node with
  | error e => exact Or.inl ⟨e, rfl, by simp only [Store.accept, opened, Except.map]⟩
  | ok epoch => exact Or.inr ⟨epoch, by simp only [Store.accept, opened, Except.map]⟩

theorem accept_ok {node : Nat} (accepted : (Store.accept c node).2 = .ok s) :
    s.node = node ∧ s.closed = false ∧ s.status = .idle := by
  rcases accept_cases c node with ⟨e, -, refused⟩ | ⟨epoch, opened⟩
  · rw [refused] at accepted
    cases accepted
  · rw [opened] at accepted
    cases accepted
    exact ⟨rfl, rfl, rfl⟩

end LedgerDrill.Cluster
