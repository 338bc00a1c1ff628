import LedgerDrill.Proofs.Cluster.Statements
import LedgerDrill.Proofs.Outcome.Labels
import LedgerDrill.Cluster.Session

namespace LedgerDrill.Cluster
open Outcome

variable {c : Cluster} {s : Session} {node epoch : Nat} {id : TransactionId} {e : StoreError}

theorem message_abortError (id : TransactionId) (reason : String) :
    (abortError id reason).message =
      "Transaction " ++ id.text ++ " (node " ++ (id.node + 1).repr ++ ", xid " ++ id.number.repr ++
        ") is aborted on node " ++ (id.node + 1).repr ++ ": " ++ reason := rfl

theorem isFailure_abortError (id : TransactionId) (reason : String) :
    IsFailure (abortError id reason) := by
  have message := message_abortError id reason
  simp only [String.append_assoc] at message
  have begins : ['T'] <+: "Transaction ".toList := by decide
  exact isFailure_of_word message begins (by decide) (by decide)

theorem isFailure_recovery (node : Nat) (reason : String) :
    IsFailure (.query ("node " ++ (node + 1).repr ++ " is in recovery: " ++ reason)) := by
  rw [String.append_assoc, String.append_assoc]
  have begins : ['n'] <+: "node ".toList := by decide
  exact isFailure_of_word rfl begins (by decide) (by decide)

theorem isFailure_offline (node : Nat) :
    IsFailure (.query ("node " ++ (node + 1).repr ++ " is not online: cluster has no quorum")) := by
  rw [String.append_assoc]
  have begins : ['n'] <+: "node ".toList := by decide
  exact isFailure_of_word rfl begins (by decide) (by decide)

theorem isFailure_openSession (h : c.openSession node = .error e) : IsFailure e := by
  unfold openSession at h
  split at h
  · cases h; exact isFailure_connectFailed node _
  · split at h
    · contradiction
    · cases h; exact isFailure_connectFailed node _

theorem isFailure_serve (h : c.serve node epoch = .error e) : IsFailure e := by
  unfold serve refresh at h
  split at h
  · split at h
    · contradiction
    · simp only at h
      split at h
      · cases h; exact isFailure_recovery node _
      · split at h
        · cases h; exact isFailure_recovery node _
        · contradiction
  · cases h; exact isFailure_connectionClosed

theorem isFailure_prepare (h : c.prepare epoch id = .error e) : IsFailure e := by
  rcases bind_eq_error h with served | ⟨c', _, refused⟩
  · exact isFailure_serve served
  · split at refused
    · contradiction
    · cases refused; exact isFailure_abortError id _

theorem isFailure_commitPrepared {writes : List Write}
    (h : (c.commitPrepared epoch id writes).2 = .error e) : IsFailure e := by
  rcases commitPrepared_cases c epoch id writes with ⟨_, eq⟩ | ⟨_, eq⟩ | ⟨_, _, _, eq⟩ <;>
    rw [eq] at h
  · cases h; exact isFailure_connectionClosed
  · cases h; exact isFailure_abortError id _
  · contradiction

/-! ## Errors of a statement -/

def FailsOnly (turn : SessionTurn) : Prop := ∀ e, turn.next = .answered (.error e) → IsFailure e

theorem failsOnly_failed (c : Cluster) (s : Session) (failure : IsFailure e) :
    FailsOnly (failed c s e) := by
  intro e' same
  cases same
  exact failure

theorem failsOnly_ok (c : Cluster) (s : Session) (reply : Reply) :
    FailsOnly (answered c s (.ok reply)) := fun e same => (by cases same)

theorem failsOnly_waiting (c : Cluster) (s : Session) (latency : Latency) (w : Waiting) :
    FailsOnly (waitingAt c s latency w) := fun e same => (by cases same)

theorem failsOnly_execute (c : Cluster) (s : Session) (statement : Statement) :
    FailsOnly (execute c s statement) := by
  have known := executes c s statement
  generalize execute c s statement = turn at known
  cases known with
  | refused _ error => exact failsOnly_failed c s (isFailure_serve error)
  | offline => exact failsOnly_failed c s (isFailure_offline s.node)
  | lost => exact failsOnly_failed c s isFailure_connectionClosed
  | commits => exact failsOnly_waiting _ _ _ _
  | begins | misses | buffers | totals | digests | creates | counts | rollsBack | ends =>
      exact failsOnly_ok _ _ _

theorem failsOnly_finishCommit (c : Cluster) (s : Session) (reply : Reply)
    {result : Except StoreError Unit} (failure : ∀ e, result = .error e → IsFailure e) :
    FailsOnly (finishCommit c s id reply result) := by
  intro e same
  cases result with
  | ok done => cases same
  | error e' =>
      cases same
      exact failure e rfl

theorem failsOnly_puts {torn : Bool} {writes : List Write} {reply : Reply} {turn : SessionTurn}
    (puts : Puts c s id reply torn writes turn) : FailsOnly turn := by
  cases puts with
  | nothing => exact failsOnly_ok _ _ _
  | next => exact failsOnly_waiting _ _ _ _
  | last | whole => exact failsOnly_finishCommit _ _ _ fun e failed => isFailure_commitPrepared failed

theorem failsOnly_resume (w : Waiting) (c : Cluster) (s : Session) :
    FailsOnly (resumeStatement w c s) := by
  have known := resumes w c s
  generalize resumeStatement w c s = turn at known
  cases known with
  | reaching statement => exact failsOnly_execute c s statement
  | refused error =>
      rintro e ⟨⟩
      exact isFailure_prepare error
  | prepared => exact failsOnly_waiting _ _ _ _
  | goesOn _ puts | applying puts | tearing puts => exact failsOnly_puts puts

theorem start_cases (statement : Statement) (c : Cluster) (s : Session) :
    (∃ latency w, (startStatement statement c s).next = .waiting latency w) ∨
    ∃ e, (startStatement statement c s).next = .answered (.error e) ∧ IsFailure e := by
  have known := starts statement c s
  generalize startStatement statement c s = turn at known
  cases known with
  | closed => exact Or.inr ⟨_, rfl, isFailure_connectionClosed⟩
  | refused | gaveUp => exact Or.inr ⟨_, rfl, isFailure_inFailedTransaction⟩
  | idle => exact Or.inr ⟨_, rfl, isFailure_noTransaction⟩
  | commits | sends => exact Or.inl ⟨_, _, rfl⟩

theorem failsOnly_start (statement : Statement) (c : Cluster) (s : Session) :
    FailsOnly (startStatement statement c s) := by
  intro e same
  rcases start_cases statement c s with ⟨latency, w, next⟩ | ⟨e', next, failure⟩
  · rw [next] at same; contradiction
  · rw [next] at same; cases same; exact failure

end LedgerDrill.Cluster
