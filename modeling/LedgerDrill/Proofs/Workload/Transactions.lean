import LedgerDrill.Scripted
import LedgerDrill.Proofs.Cluster.Statements

namespace LedgerDrill

namespace Statement

def Fits : Statement → TxStatus → Prop
  | .rollback, status => status ≠ .idle
  | .add .., status | .commit, status => status = .inTransaction
  | .begin, status | .total, status | .create _, status | .digest, status | .prepared, status => status = .idle

def Leaves : Statement → Answer → TxStatus → Prop
  | .begin, .ok _, status | .add .., .ok _, status => status = .inTransaction
  | .add .., .error _, status => status ≠ .idle
  | _, _, status => status = .idle

theorem leaves_fail {statement : Statement} {status status' : TxStatus} {e : StoreError}
    (fits : statement.Fits status) (notCommit : statement ≠ .commit) (notRollback : statement ≠ .rollback)
    (failed : status' = if status = .inTransaction then .inError else status) :
    statement.Leaves (.error e) status' := by
  cases statement with
  | commit | rollback => contradiction
  | add => cases fits; exact failed ▸ nofun
  | begin | total | create | digest | prepared => cases fits; exact failed

end Statement

section
variable {σ κ π : Type} [Store σ κ π]

inductive Store.Goes (Pending : Statement → κ → π → Prop) (statement : Statement) : Turn σ κ π → Prop
  | answered {store : σ} {s : κ} {answer : Answer}
      (leaves : Store.isClosed σ s = false → statement.Leaves answer (Store.status σ s))
      (stays : ∀ reply, answer = .ok reply → Store.isClosed σ s = false) :
      Goes Pending statement ⟨store, s, .answered answer⟩
  | waiting {store : σ} {s : κ} {latency : Latency} {point : π} (pending : Pending statement s point) :
      Goes Pending statement ⟨store, s, .waiting latency point⟩

/-- A store with transactions. What is known of a statement that waits does not depend on the store. -/
structure Store.Transacts (σ : Type) {κ π : Type} [Store σ κ π] (Pending : Statement → κ → π → Prop) : Prop where
  accepts : ∀ {store store' : σ} {node : Nat} {s : κ}, Store.accept store node = (store', .ok s) →
    Store.isClosed σ s = false ∧ Store.status σ s = .idle
  starts : ∀ {statement : Statement} {s : κ}, Store.isClosed σ s = false → statement.Fits (Store.status σ s) →
    ∀ store : σ, Store.Goes Pending statement (Store.start statement store s)
  resumes : ∀ {statement : Statement} {s : κ} {point : π}, Pending statement s point →
    ∀ store : σ, Store.Goes Pending statement (Store.resume point store s)

end

/-! ## Scripts -/

namespace Scripted

variable {statement current : Statement} {s : Session}

inductive Pending (statement : Statement) (s : Session) : Statement → Prop
  | sent (fits : statement.Fits s.status) : Pending statement s statement

theorem goes_execute (fits : statement.Fits s.status) (store : Scripted) :
    Store.Goes Pending statement (execute statement store s) := by
  cases statement with
  | begin | rollback => exact .answered (fun _ => rfl) fun _ _ => rfl
  | add | total | create | digest | prepared => exact .answered (fun _ => fits) fun _ _ => rfl
  | commit =>
      have inside : s.status = .inTransaction := fits
      rw [execute, if_pos inside]
      exact .answered (fun _ => rfl) fun _ _ => rfl

theorem transacts : Store.Transacts Scripted Pending where
  accepts {store store' node s} accepted := by
    change accept store node = (store', .ok s) at accepted
    unfold accept at accepted
    split at accepted <;> cases accepted
    exact ⟨rfl, rfl⟩
  starts {statement s} _ fits store := by
    cases statement with
    | begin | add | commit | total => exact .waiting (.sent fits)
    | rollback | create | digest | prepared => exact goes_execute fits store
  resumes pending store := by
    cases pending with
    | sent fits => exact goes_execute fits store

end Scripted

/-! ## Clusters -/

namespace Cluster

variable {statement : Statement} {c : Cluster} {s : Session}

inductive Pending : Statement → Session → Waiting → Prop
  | reaching {statement : Statement} {s : Session} (isOpen : s.closed = false) (notCommit : statement ≠ .commit)
      (fits : statement.Fits s.status) : Pending statement s (.reaching statement)
  | preparing {s : Session} {id : TransactionId} {writes : List Write} {reply : Reply} (isOpen : s.closed = false) :
      Pending .commit s (.preparing id writes reply)
  | applying {s : Session} {id : TransactionId} {writes : List Write} {reply : Reply} (isOpen : s.closed = false) :
      Pending .commit s (.applying id writes reply)
  | tearing {s : Session} {id : TransactionId} {writes : List Write} {reply : Reply} (isOpen : s.closed = false) :
      Pending .commit s (.tearing id writes reply)

theorem status_endCommit (isOpen : s.endCommit.closed = false) : s.endCommit.status = .idle := by
  unfold Session.endCommit at isOpen ⊢
  split
  · next closed =>
      rw [if_pos closed, closed] at isOpen
      cases isOpen
  · rfl

theorem closed_endCommit (isOpen : s.closed = false) : s.endCommit.closed = false := by
  simp [Session.endCommit, isOpen]

theorem status_fail {e : StoreError} (isOpen : (s.fail e).closed = false) :
    (s.fail e).status = if s.status = .inTransaction then .inError else s.status := by
  unfold Session.fail at isOpen ⊢
  split
  · cases isOpen
  · cases isOpen
  · split
    · rfl
    · rfl

theorem goes_failed (fits : statement.Fits s.status) (notCommit : statement ≠ .commit)
    (notRollback : statement ≠ .rollback) (e : StoreError) : Store.Goes Pending statement (failed c s e) :=
  .answered (fun isOpen => Statement.leaves_fail fits notCommit notRollback (status_fail isOpen)) nofun

theorem goes_execute (isOpen : s.closed = false) (notCommit : statement ≠ .commit)
    (fits : statement.Fits s.status) (c : Cluster) : Store.Goes Pending statement (execute c s statement) := by
  have executes := executes c s statement
  generalize execute c s statement = turn at executes
  cases executes with
  | refused reads =>
      refine goes_failed fits notCommit ?_ _
      rintro rfl
      cases reads
  | offline | lost => exact goes_failed fits notCommit nofun _
  | begins | rollsBack => exact .answered (fun _ => rfl) fun _ _ => isOpen
  | misses | buffers | totals | digests | creates | counts => exact .answered (fun _ => fits) fun _ _ => isOpen
  | commits served present outside => exact absurd fits outside
  | ends => contradiction

theorem goes_finishCommit (isOpen : s.closed = false) (c : Cluster) (id : TransactionId) (reply : Reply)
    (result : Except StoreError Unit) : Store.Goes Pending .commit (finishCommit c s id reply result) := by
  cases result with
  | ok done => exact .answered status_endCommit fun _ _ => closed_endCommit isOpen
  | error e => exact .answered status_endCommit nofun

theorem goes_puts {torn : Bool} {id : TransactionId} {reply : Reply} {writes : List Write} {turn : SessionTurn}
    (isOpen : s.closed = false) (puts : Puts c s id reply torn writes turn) : Store.Goes Pending .commit turn := by
  cases puts with
  | nothing => exact .answered status_endCommit fun _ _ => closed_endCommit isOpen
  | next => exact .waiting (.tearing isOpen)
  | last | whole => exact goes_finishCommit isOpen _ id reply _

theorem transacts : Store.Transacts Cluster Pending where
  accepts accepted := (accept_ok (congrArg Prod.snd accepted)).2
  starts {statement s} isOpen fits c := by
    have starts := starts statement c s
    change Store.Goes Pending statement (startStatement statement c s)
    generalize startStatement statement c s = turn at starts
    cases starts with
    | closed isClosed => cases isOpen.symm.trans isClosed
    | refused _ broken other =>
        obtain ⟨notCommit, notRollback⟩ := other
        cases statement with
        | commit | rollback => contradiction
        | begin | add | total | create | digest | prepared => cases broken.symm.trans fits
    | idle _ outside => cases outside.symm.trans fits
    | gaveUp _ broken => cases broken.symm.trans fits
    | commits _ _ => exact .waiting (.preparing isOpen)
    | sends _ notCommit _ => exact .waiting (.reaching isOpen notCommit fits)
  resumes {statement s w} pending c := by
    have known := Cluster.resumes w c s
    change Store.Goes Pending statement (resumeStatement w c s)
    generalize resumeStatement w c s = turn at known
    cases pending with
    | reaching isOpen notCommit fits =>
        cases known with
        | reaching => exact goes_execute isOpen notCommit fits c
    | preparing isOpen =>
        cases known with
        | refused => exact .answered status_endCommit nofun
        | prepared => exact .waiting (.applying isOpen)
        | goesOn _ puts => exact goes_puts isOpen puts
    | applying isOpen =>
        cases known with
        | applying puts => exact goes_puts isOpen puts
    | tearing isOpen =>
        cases known with
        | tearing puts => exact goes_puts isOpen puts

end Cluster

end LedgerDrill
