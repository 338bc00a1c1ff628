import LedgerDrill.Proofs.Cluster.Statements
import LedgerDrill.Proofs.Workload.Plans

namespace LedgerDrill.Workload
open Cluster Outcome

variable {n draw : Nat} {c : Cluster} {changes : List Change} {block : Block}

def Point.Sound (n draw : Nat) (body : Body) : Point Session Waiting → Prop
  | .connecting | .backingOff => True
  | .rollingBack s w => ∃ block, Waits block s .rollback w
  | .working s current w rest =>
    ∃ block, Stage n draw body block current rest ∧ Waits block s current w

inductive Ends (n draw : Nat) : Body → List (List Write) → Option Ending → Body → Prop
  | goesOn {body : Body} : Ends n draw body [] none body
  | moved {accounts : Nat} {amount : Int} (inside : Body.drawSource accounts draw + 1 ≤ n) :
      Ends n draw (.transfer accounts amount) [moveWrites (Body.drawSource accounts draw) amount]
        (some (.ok false)) (.transfer accounts amount)
  | read {watch : Watch} :
      Ends n draw (.sumTotal watch) [] (some (.ok (0 != watch.lastSeen))) (.sumTotal ⟨0⟩)
  | failed {body : Body} {e : StoreError} (failure : IsFailure e) :
      Ends n draw body [] (some (.error e)) body

structure LoopStep (n draw : Nat) (l : Ledger) (calls : List Call) (loop : Loop Session)
    (turn : LoopTurn Cluster Session Waiting) : Prop where
  ends : ∃ moves, l.after calls = ⟨turn.store, l.changes ++ moves.map .write⟩ ∧
    Ends n draw loop.body moves turn.ending turn.loop.body
  node : turn.loop.node = loop.node
  next : ∀ wait point, turn.next = .waiting wait point → point.Sound n draw turn.loop.body

variable {l : Ledger} {calls : List Call} {loop : Loop Session} {random : Nat}

theorem loopStep_failed (made : l.after calls = ⟨c, l.changes⟩) {e : StoreError}
    (failure : IsFailure e) (session : Option Session) :
    LoopStep n draw l calls loop (loop.conclude c session (.error e)) where
  ends := ⟨[], by rw [List.map_nil, List.append_nil]; exact made, .failed failure⟩
  node := rfl
  next _ _ same := by cases same; trivial

theorem loopStep_completed {reply : Reply} {moves : List (List Write)}
    (made : l.after calls = ⟨c, l.changes ++ moves.map .write⟩)
    (completes : Completes n draw loop.body reply moves) (session : Option Session) :
    LoopStep n draw l calls loop (loop.conclude c session (.ok reply)) := by
  obtain ⟨node, body, settings, idle⟩ := loop
  cases completes with
  | transfer inside =>
      have concludes (accounts : Nat) (amount : Int) :
          (Body.transfer accounts amount).conclude (.ok reply) =
            (.transfer accounts amount, .ok false) := by
        cases reply <;> rfl
      simp only [Loop.conclude, concludes]
      exact ⟨⟨_, made, .moved inside⟩, rfl, fun _ _ same => (by cases same)⟩
  | sumTotal => exact ⟨⟨_, made, .read⟩, rfl, fun _ _ same => (by cases same)⟩

theorem loopStep_ofPlanTurn {turn : PlanTurn Cluster Session Waiting}
    (planStep : PlanStep n draw loop.body l calls turn) :
    LoopStep n draw l calls loop (loop.ofPlanTurn turn) := by
  obtain ⟨c', s', next⟩ := turn
  obtain ⟨moves, made, proceeds⟩ := planStep
  cases proceeds with
  | completed completes => exact loopStep_completed made completes (some s')
  | failed failure => exact loopStep_failed (by simpa using made) failure (some s')
  | waiting stage waits =>
      refine ⟨⟨[], made, .goesOn⟩, rfl, ?_⟩
      rintro _ _ ⟨⟩
      exact ⟨_, stage, waits⟩

theorem exists_rests (s : Session) : ∃ block, Rests block s := by
  by_cases status : s.status = .inTransaction
  · exact ⟨some s.writes, fun _ => ⟨fun idle => by simp [idle] at status, fun _ => rfl⟩⟩
  · exact ⟨none, fun _ => ⟨fun _ => rfl, fun other => absurd other status⟩⟩

theorem plan_cases (n : Nat) (body : Body) (random : Nat) :
    (∃ e, body.plan random = .error e ∧ IsFailure e) ∨
    ∃ current rest, body.plan random = .ok (current :: rest) ∧
      (∀ block, Stage n random body block current rest) ∧ ∀ s, startCalls s current = [] := by
  cases body with
  | transfer accounts amount =>
      simp only [Body.plan]
      split
      · exact Or.inl ⟨_, rfl, isFailure_tooFewAccounts accounts⟩
      · exact Or.inr ⟨_, _, rfl, fun _ => .begin, fun _ => rfl⟩
  | sumTotal watch => exact Or.inr ⟨_, _, rfl, fun _ => .total, fun _ => rfl⟩

theorem loopStep_work (made : l.after calls = ⟨c, l.changes⟩) (s : Session) :
    LoopStep n random l calls loop (loop.work random c s) := by
  unfold Loop.work
  rcases plan_cases n loop.body random with ⟨e, plan, failure⟩ | ⟨current, rest, plan, stage, silent⟩
  · rw [plan]
    exact loopStep_failed made failure (some s)
  · rw [plan]
    obtain ⟨block, rests⟩ := exists_rests s
    have planStep := planStep_next made rests (stage block) .done
    rw [silent, List.append_nil] at planStep
    exact loopStep_ofPlanTurn planStep

theorem loopStep_ofRollback {turn : SessionTurn} (made : l.after calls = ⟨turn.store, l.changes⟩)
    (tells : Tells block .rollback [] turn) (failures : FailsOnly turn) :
    LoopStep n random l calls loop (loop.ofRollback random turn) := by
  obtain ⟨c', s', next⟩ := turn
  cases next with
  | waiting latency w =>
      refine ⟨⟨[], by rw [List.map_nil, List.append_nil]; exact made, .goesOn⟩, rfl, ?_⟩
      rintro _ _ ⟨⟩
      exact ⟨block, tells.2⟩
  | answered answer =>
      cases answer with
      | error e => exact loopStep_failed made (failures e rfl) (some s')
      | ok reply => exact loopStep_work made s'

theorem loopStep_use (made : l.after calls = ⟨c, l.changes⟩) (s : Session) :
    LoopStep n random l calls loop (loop.use random c s) := by
  unfold Loop.use
  split
  · exact loopStep_work made s
  · obtain ⟨block, rests⟩ := exists_rests s
    have store : (Ledger.after ⟨c, l.changes⟩ (startCalls s .rollback)).cluster =
        (startStatement .rollback c s).store := Ledger.cluster_startCalls .rollback
    have asked : l.after calls = ⟨(startStatement .rollback c s).store, l.changes⟩ := by
      rw [made, ← store]
      rfl
    exact loopStep_ofRollback asked (tells_start rests .rollback c) (failsOnly_start .rollback c s)

theorem loopStep_connected (made : l.after calls = ⟨c, l.changes⟩) (loop : Loop Session) :
    LoopStep n random l (calls ++ [.openSession loop.node]) loop (loop.connected random c) := by
  have asked : l.after (calls ++ [.openSession loop.node]) = ⟨c, l.changes⟩ := by
    rw [Ledger.after_append, made, Ledger.after_cons, Ledger.call_of_silent rfl]
    rfl
  unfold Loop.connected
  rcases accept_cases c loop.node with ⟨e, opened, refused⟩ | ⟨epoch, accepted⟩
  · rw [refused]
    exact loopStep_failed asked (isFailure_openSession opened) none
  · rw [accepted]
    exact loopStep_use asked _

theorem loopStep_start (loop : Loop Session) (random : Nat) (c : Cluster) (changes : List Change) :
    LoopStep n random ⟨c, changes⟩ (loop.calls c) loop (loop.start random c) := by
  have made : Ledger.after ⟨c, changes⟩ [] = ⟨c, changes⟩ := rfl
  unfold Loop.start Loop.calls
  cases loop.openSession? (Store.isClosed Cluster) with
  | some session => exact loopStep_use made session
  | none =>
      simp only [Store.dial]
      by_cases slow : 0 < c.settings.connectDelay
      · simp only [slow, ↓reduceIte]
        refine ⟨⟨[], by rw [List.map_nil, List.append_nil]; exact made, .goesOn⟩, rfl, ?_⟩
        rintro _ _ ⟨⟩
        trivial
      · simp only [slow, ↓reduceIte]
        exact loopStep_connected made loop

theorem changes_rollback {made : List Change} {turn : SessionTurn}
    (tells : Tells block .rollback made turn) : made = [] := by
  obtain ⟨c', s', next⟩ := turn
  cases next <;> exact tells.1

theorem loopStep_of_planStep (plain : c.settings.torn = false) (loop : Loop Session) (expired : Bool)
    (random : Nat) {point : Point Session Waiting} (sound : point.Sound n draw loop.body)
    (works : ∀ (s : Session) (current : Statement) (w : Waiting) (rest : List Statement),
      point = .working s current w rest → PlanStep n draw loop.body ⟨c, changes⟩
        (point.calls c loop.node expired) (resumePlan current w rest c s)) :
    LoopStep n (point.draw draw random) ⟨c, changes⟩ (point.calls c loop.node expired) loop
      (loop.resume point expired random c) := by
  have made : Ledger.after ⟨c, changes⟩ [] = ⟨c, changes⟩ := rfl
  cases point with
  | connecting =>
      simp only [Loop.resume, Point.calls, Point.draw]
      split
      · exact loopStep_failed made (isFailure_connectFailed loop.node _) none
      · exact loopStep_connected made loop
  | rollingBack s w =>
      obtain ⟨block, waits⟩ := sound
      obtain ⟨made, changed, tells⟩ := tells_resume plain waits
      obtain rfl := changes_rollback tells
      have store : (Ledger.after ⟨c, changes⟩ (w.calls c s)).cluster =
          (resumeStatement w c s).store := Ledger.cluster_calls w
      have asked : Ledger.after ⟨c, changes⟩ (w.calls c s) =
          ⟨(resumeStatement w c s).store, changes⟩ := by
        rw [List.append_nil] at changed
        rw [← store]
        exact congrArg (Ledger.mk _) changed
      exact loopStep_ofRollback asked tells (failsOnly_resume w c s)
  | working s current w rest => exact loopStep_ofPlanTurn (works s current w rest rfl)
  | backingOff =>
      exact ⟨⟨[], by rw [List.map_nil, List.append_nil]; exact made, .goesOn⟩, rfl,
        fun _ _ same => (by cases same)⟩

theorem loopStep_resume (sane : Sane n ⟨c, changes⟩) (loop : Loop Session) (expired : Bool)
    (random : Nat) {point : Point Session Waiting} (sound : point.Sound n draw loop.body) :
    LoopStep n (point.draw draw random) ⟨c, changes⟩ (point.calls c loop.node expired) loop
      (loop.resume point expired random c) := by
  refine loopStep_of_planStep sane.plain loop expired random sound fun s current w rest same => ?_
  subst same
  obtain ⟨block, stage, waits⟩ := sound
  exact planStep_resume sane stage waits

end LedgerDrill.Workload
