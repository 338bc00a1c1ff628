import LedgerDrill.Proofs.Cluster.Atomicity
import LedgerDrill.Proofs.Cluster.Failures
import LedgerDrill.Proofs.Workload.Drill

namespace LedgerDrill.Workload
open Cluster Outcome

/-- A cluster that runs commits in one step, with the accounts `0` to `n` and no money in total. -/
structure Sane (n : Nat) (l : Ledger) : Prop where
  plain : l.cluster.settings.torn = false
  faithful : l.Faithful
  balanced : Accounts.Balanced n (tableOf l.changes)

/-- Where a body waits: what its session was told, the current statement, and those to come. -/
inductive Stage (n draw : Nat) : Body → Block → Statement → List Statement → Prop
  | begin {accounts : Nat} {amount : Int} {block : Block} :
      Stage n draw (.transfer accounts amount) block .begin
        [.add (Body.drawSource accounts draw) (-amount),
          .add (Body.drawSource accounts draw + 1) amount, .commit]
  | take {accounts : Nat} {amount : Int} :
      Stage n draw (.transfer accounts amount) (some [])
        (.add (Body.drawSource accounts draw) (-amount))
        [.add (Body.drawSource accounts draw + 1) amount, .commit]
  | give {accounts : Nat} {amount : Int} :
      Stage n draw (.transfer accounts amount) (some [⟨Body.drawSource accounts draw, -amount⟩])
        (.add (Body.drawSource accounts draw + 1) amount) [.commit]
  | commit {accounts : Nat} {amount : Int} (inside : Body.drawSource accounts draw + 1 ≤ n) :
      Stage n draw (.transfer accounts amount)
        (some (moveWrites (Body.drawSource accounts draw) amount)) .commit []
  | total {watch : Watch} {block : Block} : Stage n draw (.sumTotal watch) block .total []

inductive Completes (n draw : Nat) : Body → Reply → List (List Write) → Prop
  | transfer {accounts : Nat} {amount : Int} {reply : Reply}
      (inside : Body.drawSource accounts draw + 1 ≤ n) :
      Completes n draw (.transfer accounts amount) reply
        [moveWrites (Body.drawSource accounts draw) amount]
  | sumTotal {watch : Watch} : Completes n draw (.sumTotal watch) (.total 0) []

inductive Proceeds (n draw : Nat) (body : Body) (s : Session) :
    List (List Write) → Progress Waiting → Prop
  | completed {reply : Reply} {moves : List (List Write)}
      (completes : Completes n draw body reply moves) :
      Proceeds n draw body s moves (.answered (.ok reply))
  | failed {e : StoreError} (failure : IsFailure e) :
      Proceeds n draw body s [] (.answered (.error e))
  | waiting {latency : Latency} {block : Block} {current : Statement} {w : Waiting}
      {rest : List Statement} (stage : Stage n draw body block current rest)
      (waits : Waits block s current w) :
      Proceeds n draw body s [] (.waiting latency current w rest)

def PlanStep (n draw : Nat) (body : Body) (l : Ledger) (calls : List Call)
    (turn : PlanTurn Cluster Session Waiting) : Prop :=
  ∃ moves, l.after calls = ⟨turn.store, l.changes ++ moves.map .write⟩ ∧
    Proceeds n draw body turn.session moves turn.next

variable {n draw : Nat} {body : Body} {c : Cluster} {changes : List Change} {s : Session}
variable {block : Block} {current : Statement} {rest : List Statement} {w : Waiting}

/-! ## Statements -/

def Gives (n : Nat) : Statement → Reply → Prop
  | .add uid _, reply => reply = .rows 0 ∨ (reply = .rows 1 ∧ uid ≤ n)
  | .total, reply => reply = .total 0
  | _, _ => True

theorem gives_execute (sane : Sane n ⟨c, changes⟩) {statement : Statement} {reply : Reply}
    (answered : (execute c s statement).next = .answered (.ok reply)) : Gives n statement reply := by
  have known := executes c s statement
  generalize execute c s statement = turn at known answered
  cases known with
  | refused | offline | lost | commits => cases answered
  | misses =>
      cases answered
      exact Or.inl rfl
  | buffers served present =>
      cases answered
      rw [sane.faithful.accountsOf served, sane.balanced.rows] at present
      exact Or.inr ⟨rfl, of_decide_eq_true present⟩
  | totals served =>
      cases answered
      rw [sane.faithful.accountsOf served]
      exact congrArg Reply.total sane.balanced.total
  | begins | digests | creates | counts | rollsBack | ends => trivial

theorem gives_resume (sane : Sane n ⟨c, changes⟩) (stage : Stage n draw body block current rest)
    (waits : Waits block s current w) {reply : Reply}
    (answered : (resumeStatement w c s).next = .answered (.ok reply)) : Gives n current reply := by
  cases waits with
  | reaching => exact gives_execute sane answered
  -- Inside a transaction no update commits by itself.
  | preparing commits | applying commits =>
      cases commits with
      | block => trivial
      | single => cases stage

/-! ## Bodies -/

theorem proceeds_start (stage : Stage n draw body block current rest) (rests : Rests block s)
    (last : Reply) (c : Cluster) :
    (startPlan (current :: rest) last c s).store = (startStatement current c s).store ∧
      Proceeds n draw body (startPlan (current :: rest) last c s).session []
        (startPlan (current :: rest) last c s).next := by
  have unfolded : startPlan (current :: rest) last c s =
      .ofTurn current rest (startStatement current c s) (startPlan rest) := rfl
  have tells := tells_start rests current c
  have next := start_cases current c s
  rw [unfolded]
  generalize startStatement current c s = turn at tells next ⊢
  obtain ⟨c', s', next'⟩ := turn
  rcases next with ⟨latency, w, rfl⟩ | ⟨e, rfl, failure⟩
  · exact ⟨rfl, .waiting stage tells.2⟩
  · exact ⟨rfl, .failed failure⟩

theorem planStep_next {calls : List Call} {next : Statement} {c' : Cluster} {s' : Session}
    (made : Ledger.after ⟨c, changes⟩ calls = ⟨c', changes⟩) (rests : Rests block s')
    (stage : Stage n draw body block next rest) (last : Reply) :
    PlanStep n draw body ⟨c, changes⟩ (calls ++ startCalls s' next)
      (startPlan (next :: rest) last c' s') := by
  obtain ⟨store, proceeds⟩ := proceeds_start stage rests last c'
  refine ⟨[], ?_, proceeds⟩
  have cluster : (Ledger.after ⟨c', changes⟩ (startCalls s' next)).cluster =
      (startStatement next c' s').store := Ledger.cluster_startCalls next
  have silent : (Ledger.after ⟨c', changes⟩ (startCalls s' next)).changes = changes :=
    changes_startCalls s' next
  rw [Ledger.after_append, made, store, List.map_nil, List.append_nil, ← cluster]
  exact congrArg (Ledger.mk _) silent

theorem planStep_failed {calls : List Call} {c' : Cluster} {answer : Answer} {e : StoreError}
    (made : Ledger.after ⟨c, changes⟩ calls = ⟨c', changes⟩)
    (fails : answer.bind (checkReply current) = .error e) (failure : IsFailure e) (s' : Session)
    (rest : List Statement) :
    PlanStep n draw body ⟨c, changes⟩
      (calls ++ followCalls ⟨c', s', .answered answer⟩ current rest)
      (.ofTurn current rest ⟨c', s', .answered answer⟩ (startPlan rest)) := by
  have noCalls : followCalls ⟨c', s', .answered answer⟩ current rest = [] := by
    cases rest <;> simp [followCalls, fails, Except.toBool]
  rw [PlanTurn.ofTurn_failed fails, noCalls, List.append_nil]
  exact ⟨[], by simpa using made, .failed failure⟩

theorem planStep_answered {calls : List Call} {c' : Cluster} {s' : Session} {answer : Answer}
    (made : Ledger.after ⟨c, changes⟩ calls = ⟨c', changes ++ block.changes current answer⟩)
    (rests : Rests (block.next current answer) s') (stage : Stage n draw body block current rest)
    (gives : ∀ reply, answer = .ok reply → Gives n current reply)
    (failures : ∀ e, answer = .error e → IsFailure e) :
    PlanStep n draw body ⟨c, changes⟩
      (calls ++ followCalls ⟨c', s', .answered answer⟩ current rest)
      (.ofTurn current rest ⟨c', s', .answered answer⟩ (startPlan rest)) := by
  have unchanged (none : block.changes current answer = []) :
      Ledger.after ⟨c, changes⟩ calls = ⟨c', changes⟩ := by rw [made, none, List.append_nil]
  cases answer with
  | error e => exact planStep_failed (unchanged (Block.changes_error _ _ _)) rfl (failures e rfl) s' rest
  | ok reply =>
      have known := gives reply rfl
      -- An update that has met no account ends the body, though the session sees no error.
      cases stage with
      | begin => exact planStep_next (unchanged rfl) rests .take reply
      | take =>
          rcases known with rfl | ⟨rfl, _⟩
          · exact planStep_failed (unchanged rfl) rfl (isFailure_rowCount _ _) s' _
          · exact planStep_next (unchanged rfl) rests .give (.rows 1)
      | give =>
          rcases known with rfl | ⟨rfl, inside⟩
          · exact planStep_failed (unchanged rfl) rfl (isFailure_rowCount _ _) s' _
          · exact planStep_next (unchanged rfl) rests (.commit inside) (.rows 1)
      | commit inside =>
          refine ⟨[moveWrites (Body.drawSource _ draw) _], ?_, .completed (.transfer inside)⟩
          rw [followCalls, List.append_nil]
          exact made
      | total =>
          obtain rfl := known
          refine ⟨[], ?_, .completed .sumTotal⟩
          rw [followCalls, List.append_nil]
          exact made

theorem planStep_of_gives (plain : c.settings.torn = false) (stage : Stage n draw body block current rest)
    (waits : Waits block s current w)
    (gives : ∀ reply, (resumeStatement w c s).next = .answered (.ok reply) → Gives n current reply) :
    PlanStep n draw body ⟨c, changes⟩
      (w.calls c s ++ followCalls (resumeStatement w c s) current rest)
      (resumePlan current w rest c s) := by
  obtain ⟨made, changed, tells⟩ := tells_resume plain waits
  have store : (Ledger.after ⟨c, changes⟩ (w.calls c s)).cluster = (resumeStatement w c s).store :=
    Ledger.cluster_calls w
  have after : Ledger.after ⟨c, changes⟩ (w.calls c s) =
      ⟨(resumeStatement w c s).store, changes ++ made⟩ := by
    rw [← store, ← changed]
  have failures := failsOnly_resume w c s
  change PlanStep n draw body ⟨c, changes⟩ _
    (.ofTurn current rest (resumeStatement w c s) (startPlan rest))
  -- From here on only what the turn tells matters, not how the statement came to it.
  clear store changed
  generalize resumeStatement w c s = turn at tells after failures gives ⊢
  obtain ⟨c', s', next⟩ := turn
  cases next with
  | waiting latency w' =>
      obtain ⟨rfl, waits'⟩ := tells
      refine ⟨[], ?_, .waiting stage waits'⟩
      have noCalls : followCalls ⟨c', s', .waiting latency w'⟩ current rest = [] := by
        cases rest <;> rfl
      rw [noCalls, List.append_nil]
      exact after
  | answered answer =>
      obtain ⟨rfl, rests⟩ := tells
      exact planStep_answered after rests stage (fun reply same => gives reply (congrArg _ same))
        fun e same => failures e (congrArg _ same)

theorem planStep_resume (sane : Sane n ⟨c, changes⟩)
    (stage : Stage n draw body block current rest) (waits : Waits block s current w) :
    PlanStep n draw body ⟨c, changes⟩
      (w.calls c s ++ followCalls (resumeStatement w c s) current rest)
      (resumePlan current w rest c s) :=
  planStep_of_gives sane.plain stage waits fun _ => gives_resume sane stage waits

end LedgerDrill.Workload
