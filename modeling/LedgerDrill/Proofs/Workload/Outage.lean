import LedgerDrill.Proofs.Cluster.Outage
import LedgerDrill.Proofs.Cluster.Statements
import LedgerDrill.Workload.Task

namespace LedgerDrill.Workload
open Cluster Outcome

/-! ## Transfers -/

inductive Ahead (s : Session) : List Statement → Prop
  | all {source target : Nat} {delta delta' : Int} :
      Ahead s [.begin, .add source delta, .add target delta', .commit]
  | take {source target : Nat} {delta delta' : Int} (isOpen : s.status = .inTransaction) :
      Ahead s [.add source delta, .add target delta', .commit]
  | give {target : Nat} {delta : Int} (isOpen : s.status = .inTransaction) (some : s.writes ≠ []) :
      Ahead s [.add target delta, .commit]
  | commit (some : s.writes ≠ []) : Ahead s [.commit]

inductive Halfway (s : Session) : Statement → Waiting → List Statement → Prop
  | reaching {current : Statement} {rest : List Statement} (ahead : Ahead s (current :: rest))
      (notLast : rest ≠ []) : Halfway s current (.reaching current) rest
  | commit {w : Waiting} (carries : Carries s.node w) : Halfway s .commit w []

variable {c c' : Cluster} {s : Session} {current : Statement} {w : Waiting} {rest : List Statement}
variable {latency : Latency} {e : StoreError} {reply : Reply}

theorem halfway_start (ahead : Ahead s (current :: rest))
    (next : (startStatement current c s).next = .waiting latency w) :
    Halfway (startStatement current c s).session current w rest := by
  have known := ahead
  cases ahead with
  | all | take | give =>
      cases refused : s.refusal? with
      | some e =>
          simp only [startStatement, refused] at next
          cases next
      | none =>
          simp only [startStatement, refused] at next ⊢
          cases next
          exact .reaching known (by simp)
  | commit some =>
      have node : (startStatement .commit c s).session.node = s.node := (settled_start .commit c s).node
      exact .commit (node ▸ carries_begun some next)

theorem execute_add (isOpen : s.status = .inTransaction) (c : Cluster) (uid : Nat) (delta : Int) :
    (∃ e, (execute c s (.add uid delta)).next = .answered (.error e)) ∨
    (execute c s (.add uid delta)).next = .answered (.ok (.rows 0)) ∨
    ((execute c s (.add uid delta)).next = .answered (.ok (.rows 1)) ∧
      (execute c s (.add uid delta)).session = { s with writes := s.writes ++ [⟨uid, delta⟩] }) := by
  have known := executes c s (.add uid delta)
  generalize execute c s (.add uid delta) = turn at known
  cases known with
  | refused => exact Or.inl ⟨_, rfl⟩
  | misses => exact Or.inr (Or.inl rfl)
  | buffers => exact Or.inr (Or.inr ⟨rfl, rfl⟩)
  | commits _ _ outside => exact absurd isOpen outside

theorem ahead_execute (ahead : Ahead s (current :: rest)) (notLast : rest ≠ []) (c : Cluster) :
    ∃ answer, (execute c s current).next = .answered answer ∧
      ∀ reply, answer.bind (checkReply current) = .ok reply → Ahead (execute c s current).session rest := by
  have added {uid : Nat} {delta : Int} (isOpen : s.status = .inTransaction)
      (later : Ahead { s with writes := s.writes ++ [⟨uid, delta⟩] } rest) :
      ∃ answer, (execute c s (.add uid delta)).next = .answered answer ∧
        ∀ reply, answer.bind (checkReply (.add uid delta)) = .ok reply →
          Ahead (execute c s (.add uid delta)).session rest := by
    rcases execute_add isOpen c uid delta with ⟨e, next⟩ | next | ⟨next, session⟩
    · exact ⟨_, next, fun _ failed => by cases failed⟩
    · exact ⟨_, next, fun _ failed => by cases failed⟩
    · exact ⟨_, next, fun _ _ => session ▸ later⟩
  cases ahead with
  | commit => contradiction
  | take isOpen => exact added isOpen (.give isOpen (by simp))
  | give isOpen some => exact added isOpen (.commit (by simp))
  | all =>
      simp only [execute]
      cases c.rowExists s.node s.epoch 0 with
      | error e => exact ⟨_, rfl, fun _ failed => by cases failed⟩
      | ok answer => exact ⟨_, rfl, fun _ _ => .take rfl⟩

/-! ## Bodies -/

theorem isFailure_check {answer : Answer} (failures : ∀ e, answer = .error e → IsFailure e)
    (fails : answer.bind (checkReply current) = .error e) : IsFailure e := by
  cases answer with
  | error e' =>
      cases fails
      exact failures _ rfl
  | ok reply =>
      change checkReply current reply = .error e at fails
      unfold checkReply at fails
      split at fails
      · split at fails
        · cases fails
        · cases fails
          exact isFailure_rowCount _ _
      · cases fails

structure Worked (kind : LoopKind) (c : Cluster) (s : Session) (turn : PlanTurn Cluster Session Waiting) :
    Prop where
  alike : Alike c turn.store
  node : turn.session.node = s.node
  failure : ∀ e, turn.next = .answered (.error e) → IsFailure e
  halfway : kind = .transfer → ∀ latency current w rest,
    turn.next = .waiting latency current w rest → Halfway turn.session current w rest
  refused : kind = .transfer → CutOff s.node c → ∀ reply, turn.next ≠ .answered (.ok reply)

variable {kind : LoopKind}

theorem Worked.behind {s' : Session} {turn : PlanTurn Cluster Session Waiting} (alike : Alike c c')
    (node : s'.node = s.node) (worked : Worked kind c' s' turn) : Worked kind c s turn where
  alike := alike.trans worked.alike
  node := worked.node.trans node
  failure := worked.failure
  halfway := worked.halfway
  refused transfer cutOff := worked.refused transfer (node ▸ cutOff.keep (alike.untouched s.node))

theorem worked_start (ahead : kind = .transfer → Ahead s (current :: rest)) (last : Reply) (c : Cluster) :
    Worked kind c s (startPlan (current :: rest) last c s) := by
  have unfolded : startPlan (current :: rest) last c s =
      .ofTurn current rest (startStatement current c s) (startPlan rest) := rfl
  have settled := settled_start current c s
  have halfway (transfer : kind = .transfer) (latency : Latency) (w : Waiting)
      (next : (startStatement current c s).next = .waiting latency w) :
      Halfway (startStatement current c s).session current w rest := halfway_start (ahead transfer) next
  have next := start_cases current c s
  rw [unfolded]
  generalize startStatement current c s = turn at settled halfway next ⊢
  obtain ⟨c', s', next'⟩ := turn
  rcases next with ⟨latency, w, rfl⟩ | ⟨e, rfl, failure⟩
  · refine ⟨settled.alike, settled.node, nofun, ?_, fun _ _ => nofun⟩
    rintro transfer _ _ _ _ ⟨⟩
    exact halfway transfer _ _ rfl
  · refine ⟨settled.alike, settled.node, ?_, fun _ _ _ _ _ => nofun, fun _ _ => nofun⟩
    rintro _ ⟨⟩
    exact failure

theorem Halfway.waits (halfway : Halfway s current w rest) {w' : Waiting}
    (next : (resumeStatement w c s).next = .waiting latency w') :
    Halfway (resumeStatement w c s).session current w' rest := by
  cases halfway with
  | reaching ahead notLast =>
      obtain ⟨answer, answered, -⟩ := ahead_execute ahead notLast c
      exact absurd (next.symm.trans answered) nofun
  | commit carries => exact .commit ((settled_resume w c s).node ▸ carries.resume next)

theorem Halfway.answers (halfway : Halfway s current w rest) {answer : Answer}
    (next : (resumeStatement w c s).next = .answered answer)
    (checked : answer.bind (checkReply current) = .ok reply) :
    (rest = [] ∧ ¬ CutOff s.node c) ∨ Ahead (resumeStatement w c s).session rest := by
  cases halfway with
  | reaching ahead notLast =>
      obtain ⟨_, answered, later⟩ := ahead_execute ahead notLast c
      cases next.symm.trans answered
      exact Or.inr (later reply checked)
  | commit carries =>
      refine Or.inl ⟨rfl, fun cutOff => ?_⟩
      cases answer with
      | error e => cases checked
      | ok reply => exact cutOff.refuses carries s reply next

theorem worked_resume (halfway : kind = .transfer → Halfway s current w rest) (c : Cluster) :
    Worked kind c s (resumePlan current w rest c s) := by
  have unfolded : resumePlan current w rest c s =
      .ofTurn current rest (resumeStatement w c s) (startPlan rest) := rfl
  have settled := settled_resume w c s
  have failures := failsOnly_resume w c s
  have waits (transfer : kind = .transfer) (latency : Latency) (w' : Waiting)
      (next : (resumeStatement w c s).next = .waiting latency w') :
      Halfway (resumeStatement w c s).session current w' rest := (halfway transfer).waits next
  have answers (transfer : kind = .transfer) (answer : Answer) (reply : Reply)
      (next : (resumeStatement w c s).next = .answered answer)
      (checked : answer.bind (checkReply current) = .ok reply) :
      (rest = [] ∧ ¬ CutOff s.node c) ∨ Ahead (resumeStatement w c s).session rest :=
    (halfway transfer).answers next checked
  rw [unfolded]
  generalize resumeStatement w c s = turn at settled failures waits answers ⊢
  obtain ⟨c', s', next⟩ := turn
  cases next with
  | waiting latency w' =>
      refine ⟨settled.alike, settled.node, nofun, ?_, fun _ _ => nofun⟩
      rintro transfer _ _ _ _ ⟨⟩
      exact waits transfer _ _ rfl
  | answered answer =>
      cases checked : answer.bind (checkReply current) with
      | error e =>
          have failure : IsFailure e := isFailure_check (fun e same => failures e (congrArg _ same)) checked
          rw [PlanTurn.ofTurn_failed checked]
          refine ⟨settled.alike, settled.node, ?_, fun _ _ _ _ _ => nofun, fun _ _ => nofun⟩
          rintro _ ⟨⟩
          exact failure
      | ok reply =>
          have known (transfer : kind = .transfer) := answers transfer answer reply rfl checked
          rw [PlanTurn.ofTurn_passed checked]
          -- Only the commit has no statement behind it.
          cases rest with
          | nil =>
              refine ⟨settled.alike, settled.node, nofun, fun _ _ _ _ _ => nofun, fun transfer cutOff => ?_⟩
              rcases known transfer with ⟨-, connected⟩ | ahead
              · exact absurd cutOff connected
              · cases ahead
          | cons next rest =>
              refine (worked_start (fun transfer => ?_) reply c').behind settled.alike settled.node
              rcases known transfer with ⟨last, -⟩ | ahead
              · cases last
              · exact ahead

/-! ## Loops -/

theorem Loop.connected_cases (l : Loop Session) (random : Nat) (c : Cluster) :
    (∃ e, c.openSession l.node = .error e ∧ l.connected random c = l.conclude c none (.error e)) ∨
    ∃ s, s.node = l.node ∧ l.connected random c = l.use random c s := by
  unfold Loop.connected
  rcases accept_cases c l.node with ⟨e, opened, refused⟩ | ⟨epoch, accepted⟩
  · exact Or.inl ⟨e, opened, by rw [refused]⟩
  · exact Or.inr ⟨{ node := l.node, epoch }, rfl, by rw [accepted]⟩

theorem Loop.start_cases (l : Loop Session) (random : Nat) (c : Cluster) :
    (∃ s, l.session = some s ∧ l.start random c = l.use random c s) ∨
    l.start random c = l.connected random c ∨
    ∃ wait, l.start random c = ⟨c, { l with session := none }, none, .waiting wait .connecting⟩ := by
  unfold Loop.start
  split
  · next s found => exact Or.inl ⟨s, (Option.filter_eq_some_iff.mp found).1, rfl⟩
  · refine Or.inr ?_
    simp only [Store.dial]
    by_cases slow : 0 < c.settings.connectDelay
    · simp only [slow, ↓reduceIte]
      exact Or.inr ⟨_, rfl⟩
    · simp only [slow, ↓reduceIte, true_or]

def Loop.AtHome (l : Loop Session) : Prop := ∀ s, l.session = some s → s.node = l.node

def Point.AtHome (l : Loop Session) : Point Session Waiting → Prop
  | .connecting | .backingOff => True
  | .rollingBack s _ => s.node = l.node
  | .working s current w rest => s.node = l.node ∧ (l.kind = .transfer → Halfway s current w rest)

structure Stayed (c : Cluster) (l : Loop Session) (turn : LoopTurn Cluster Session Waiting) : Prop where
  alike : Alike c turn.store
  key : turn.loop.key = l.key
  home : turn.loop.AtHome
  next : ∀ wait point, turn.next = .waiting wait point → point.AtHome turn.loop
  barred : l.kind = .transfer → CutOff l.node c → ∀ ending, turn.ending = some ending →
    Label.ofText (Ending.message ending) ≠ commit

variable {l : Loop Session} {session : Option Session} {random : Nat}

theorem kind_conclude (body : Body) (answer : Answer) : (body.conclude answer).1.kind = body.kind := by
  unfold Body.conclude
  split
  · rfl
  · split <;> rfl
  · rfl

theorem Body.conclude_ok (body : Body) (reply : Reply) :
    ∃ changed, (body.conclude (.ok reply)).2 = .ok changed := by
  unfold Body.conclude
  split
  · contradiction
  · split <;> exact ⟨_, rfl⟩
  · exact ⟨_, rfl⟩

theorem stayed_failed (alike : Alike c c') (home : ∀ s, session = some s → s.node = l.node)
    (failure : IsFailure e) : Stayed c l (l.conclude c' session (.error e)) where
  alike := alike
  key := rfl
  home s kept := home s (Option.filter_eq_some_iff.mp kept).1
  next _ _ same := by cases same; trivial
  barred _ _ _ same := by cases same; exact failure

theorem stayed_completed (alike : Alike c c') (home : ∀ s, session = some s → s.node = l.node)
    (reply : Reply) (connected : l.kind = .transfer → ¬ CutOff l.node c) :
    Stayed c l (l.conclude c' session (.ok reply)) := by
  have kind := kind_conclude l.body (.ok reply)
  obtain ⟨changed, ending⟩ := l.body.conclude_ok reply
  simp only [Loop.conclude, ending]
  exact ⟨alike, congrArg (Key.mk l.node) kind, home, fun _ _ => nofun,
    fun transfer cutOff => absurd cutOff (connected transfer)⟩

theorem stayed_ofPlanTurn {turn : PlanTurn Cluster Session Waiting} (node : s.node = l.node)
    (worked : Worked l.kind c s turn) : Stayed c l (l.ofPlanTurn turn) := by
  obtain ⟨c', s', next⟩ := turn
  have here : s'.node = l.node := worked.node.trans node
  have home (s'' : Session) (same : some s' = some s'') : s''.node = l.node := Option.some.inj same ▸ here
  cases next with
  | waiting latency current w rest =>
      refine ⟨worked.alike, rfl, nofun, ?_, fun _ _ _ => nofun⟩
      rintro _ _ ⟨⟩
      exact ⟨here, fun transfer => worked.halfway transfer _ _ _ _ rfl⟩
  | answered answer =>
      cases answer with
      | error e => exact stayed_failed worked.alike home (worked.failure e rfl)
      | ok reply =>
          refine stayed_completed worked.alike home reply fun transfer cutOff => ?_
          exact worked.refused transfer (node ▸ cutOff) reply rfl

theorem Stayed.behind {turn : LoopTurn Cluster Session Waiting} (alike : Alike c c')
    (stayed : Stayed c' l turn) : Stayed c l turn where
  alike := alike.trans stayed.alike
  key := stayed.key
  home := stayed.home
  next := stayed.next
  barred transfer cutOff := stayed.barred transfer (cutOff.keep (alike.untouched l.node))

theorem stayed_work (node : s.node = l.node) (random : Nat) (c : Cluster) :
    Stayed c l (l.work random c s) := by
  have home (s' : Session) (same : some s = some s') : s'.node = l.node := Option.some.inj same ▸ node
  obtain ⟨ofNode, body, settings, session⟩ := l
  cases body with
  | sumTotal watch =>
      have other (transfer : LoopKind.sumTotal = .transfer) : Ahead s [.total] := by cases transfer
      exact stayed_ofPlanTurn node (worked_start other .done c)
  | transfer accounts amount =>
      simp only [Loop.work, Body.plan]
      by_cases few : accounts < 3
      · simp only [few, ↓reduceIte]
        exact stayed_failed (Alike.refl c) home (isFailure_tooFewAccounts accounts)
      · simp only [few, ↓reduceIte]
        exact stayed_ofPlanTurn node (worked_start (fun _ => .all) .done c)

theorem stayed_ofRollback {turn : SessionTurn} (node : s.node = l.node) (settled : Settled c s turn)
    (failures : FailsOnly turn) (random : Nat) : Stayed c l (l.ofRollback random turn) := by
  obtain ⟨c', s', next⟩ := turn
  have here : s'.node = l.node := settled.node.trans node
  have home (s'' : Session) (same : some s' = some s'') : s''.node = l.node := Option.some.inj same ▸ here
  cases next with
  | waiting latency w =>
      refine ⟨settled.alike, rfl, nofun, ?_, fun _ _ _ => nofun⟩
      rintro _ _ ⟨⟩
      exact here
  | answered answer =>
      cases answer with
      | error e => exact stayed_failed settled.alike home (failures e rfl)
      | ok reply => exact (stayed_work here random c').behind settled.alike

theorem stayed_use (node : s.node = l.node) (random : Nat) (c : Cluster) : Stayed c l (l.use random c s) := by
  unfold Loop.use
  split
  · exact stayed_work node random c
  · exact stayed_ofRollback node (settled_start .rollback c s) (failsOnly_start .rollback c s) random

theorem stayed_connected (l : Loop Session) (random : Nat) (c : Cluster) :
    Stayed c l (l.connected random c) := by
  rcases l.connected_cases random c with ⟨e, opened, refused⟩ | ⟨s, node, accepted⟩
  · rw [refused]
    exact stayed_failed (Alike.refl c) nofun (isFailure_openSession opened)
  · rw [accepted]
    exact stayed_use node random c

theorem stayed_start (home : l.AtHome) (random : Nat) (c : Cluster) : Stayed c l (l.start random c) := by
  rcases l.start_cases random c with ⟨s, left, begins⟩ | begins | ⟨wait, begins⟩ <;> rw [begins]
  · exact stayed_use (home s left) random c
  · exact stayed_connected l random c
  · refine ⟨Alike.refl c, rfl, nofun, ?_, fun _ _ _ => nofun⟩
    rintro _ _ ⟨⟩
    trivial

theorem stayed_resume {point : Point Session Waiting} (home : l.AtHome) (here : point.AtHome l)
    (expired : Bool) (random : Nat) (c : Cluster) : Stayed c l (l.resume point expired random c) := by
  cases point with
  | connecting =>
      simp only [Loop.resume]
      split
      · exact stayed_failed (Alike.refl c) nofun (isFailure_connectFailed l.node _)
      · exact stayed_connected l random c
  | rollingBack s w => exact stayed_ofRollback here (settled_resume w c s) (failsOnly_resume w c s) random
  | working s current w rest => exact stayed_ofPlanTurn here.1 (worked_resume here.2 c)
  | backingOff => exact ⟨Alike.refl c, rfl, home, fun _ _ => nofun, fun _ _ _ => nofun⟩

end LedgerDrill.Workload
