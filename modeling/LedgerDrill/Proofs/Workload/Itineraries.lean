import LedgerDrill.Proofs.Workload.Outage

namespace LedgerDrill.Workload

theorem Body.plan_ne_nil (body : Body) (random : Nat) : body.plan random ≠ .ok [] := by
  intro plan
  cases body with
  | sumTotal watch => cases plan
  | transfer accounts amount =>
      simp only [Body.plan] at plan
      split at plan <;> cases plan

/-- What holds at the stages of an iteration. -/
structure Itinerary (σ κ π : Type) where
  Dialled : σ → Prop
  Ready : σ → κ → Prop
  /-- A rollback has made a step. -/
  Rolling : Turn σ κ π → Prop
  /-- A statement has made a step, and others are behind it. -/
  Working : Statement → List Statement → Turn σ κ π → Prop
  /-- The iteration ends with an answer, and leaves the session. -/
  Ended : σ → Option κ → Answer → Prop

namespace Itinerary

variable {σ κ π : Type} [Store σ κ π]

def Taken (it : Itinerary σ κ π) (store : σ) (s : κ) : Prop :=
  (Store.status σ s = .idle → it.Ready store s) ∧
    (Store.status σ s ≠ .idle → it.Rolling (Store.start .rollback store s))

structure Leads (it : Itinerary σ κ π) (l : Loop κ) : Prop where
  expired : ∀ {store}, it.Dialled store → it.Ended store none (.error (timeoutError l.node))
  refused : ∀ {store store' e}, it.Dialled store → Store.accept store l.node = (store', .error e) →
    it.Ended store' none (.error e)
  accepted : ∀ {store store' s}, it.Dialled store → Store.accept store l.node = (store', .ok s) →
    it.Taken store' s
  stuck : ∀ {turn e}, it.Rolling turn → turn.next = .answered (.error e) →
    it.Ended turn.store (some turn.session) (.error e)
  rolledBack : ∀ {turn reply}, it.Rolling turn → turn.next = .answered (.ok reply) →
    it.Ready turn.store turn.session
  unplanned : ∀ {store s random e}, it.Ready store s → l.body.plan random = .error e →
    it.Ended store (some s) (.error e)
  planned : ∀ {store s random first rest}, it.Ready store s → l.body.plan random = .ok (first :: rest) →
    it.Working first rest (Store.start first store s)
  failed : ∀ {current rest turn answer e}, it.Working current rest turn → turn.next = .answered answer →
    answer.bind (checkReply current) = .error e → it.Ended turn.store (some turn.session) (.error e)
  passed : ∀ {current next rest turn answer reply}, it.Working current (next :: rest) turn →
    turn.next = .answered answer → answer.bind (checkReply current) = .ok reply →
    it.Working next rest (Store.start next turn.store turn.session)
  completed : ∀ {current turn answer reply}, it.Working current [] turn → turn.next = .answered answer →
    answer.bind (checkReply current) = .ok reply → it.Ended turn.store (some turn.session) (.ok reply)

inductive Reaches (it : Itinerary σ κ π) (l : Loop κ) : LoopTurn σ κ π → Prop
  | ended {store : σ} {session : Option κ} {answer : Answer} (ended : it.Ended store session answer) :
      Reaches it l (l.conclude store session answer)
  | dialled {store : σ} (latency : Latency) (dialled : it.Dialled store) :
      Reaches it l ⟨store, { l with session := none }, none,
        .waiting (.connection latency l.settings.connectTimeout) .connecting⟩
  | rolling {store : σ} {s : κ} {latency : Latency} {point : π}
      (rolling : it.Rolling ⟨store, s, .waiting latency point⟩) :
      Reaches it l ⟨store, { l with session := none }, none, .waiting (.roundTrip latency) (.rollingBack s point)⟩
  | working {store : σ} {s : κ} {latency : Latency} {current : Statement} {point : π} {rest : List Statement}
      (working : it.Working current rest ⟨store, s, .waiting latency point⟩) :
      Reaches it l ⟨store, { l with session := none }, none,
        .waiting (.roundTrip latency) (.working s current point rest)⟩

def Resumes (it : Itinerary σ κ π) (store : σ) : Point κ π → Prop
  | .connecting => it.Dialled store
  | .rollingBack s point => it.Rolling (Store.resume point store s)
  | .working s current point rest => it.Working current rest (Store.resume point store s)
  | .backingOff => False

omit [Store σ κ π] in
def Awaits (it : Itinerary σ κ π) (store : σ) : Point κ π → Prop
  | .connecting => it.Dialled store
  | .rollingBack s point => ∃ latency, it.Rolling ⟨store, s, .waiting latency point⟩
  | .working s current point rest => ∃ latency, it.Working current rest ⟨store, s, .waiting latency point⟩
  | .backingOff => False

variable {it : Itinerary σ κ π} {l : Loop κ} {store : σ} {s : κ} {turn : Turn σ κ π}

theorem reaches_plan (leads : it.Leads l) {current : Statement} {rest : List Statement}
    (working : it.Working current rest turn) :
    it.Reaches l (l.ofPlanTurn (.ofTurn current rest turn (startPlan rest))) := by
  induction rest generalizing current turn with
  | nil =>
      obtain ⟨store, s, next⟩ := turn
      cases next with
      | waiting latency point => exact .working working
      | answered answer =>
          simp only [PlanTurn.ofTurn]
          cases checked : answer.bind (checkReply current) with
          | error e => exact .ended (leads.failed working rfl checked)
          | ok reply => exact .ended (leads.completed working rfl checked)
  | cons next rest ih =>
      obtain ⟨store, s, course⟩ := turn
      cases course with
      | waiting latency point => exact .working working
      | answered answer =>
          simp only [PlanTurn.ofTurn]
          cases checked : answer.bind (checkReply current) with
          | error e => exact .ended (leads.failed working rfl checked)
          | ok reply => exact ih (leads.passed working rfl checked)

theorem reaches_work (leads : it.Leads l) (ready : it.Ready store s) (random : Nat) :
    it.Reaches l (l.work random store s) := by
  unfold Loop.work
  cases plan : l.body.plan random with
  | error e => exact .ended (leads.unplanned ready plan)
  | ok statements =>
      cases statements with
      | nil => exact absurd plan (l.body.plan_ne_nil random)
      | cons first rest => exact reaches_plan leads (leads.planned ready plan)

theorem reaches_ofRollback (leads : it.Leads l) (rolling : it.Rolling turn) (random : Nat) :
    it.Reaches l (l.ofRollback random turn) := by
  obtain ⟨store, s, next⟩ := turn
  cases next with
  | waiting latency point => exact .rolling rolling
  | answered answer =>
      cases answer with
      | error e => exact .ended (leads.stuck rolling rfl)
      | ok reply => exact reaches_work leads (leads.rolledBack rolling rfl) random

theorem reaches_use (leads : it.Leads l) (taken : it.Taken store s) (random : Nat) :
    it.Reaches l (l.use random store s) := by
  unfold Loop.use
  split
  · next idle => exact reaches_work leads (taken.1 idle) random
  · next broken => exact reaches_ofRollback leads (taken.2 broken) random

theorem reaches_connected (leads : it.Leads l) (dialled : it.Dialled store) (random : Nat) :
    it.Reaches l (l.connected random store) := by
  simp only [Loop.connected]
  cases result : Store.accept store l.node with
  | mk store' answer =>
      cases answer with
      | error e => exact .ended (leads.refused dialled result)
      | ok s => exact reaches_use leads (leads.accepted dialled result) random

theorem reaches_start (leads : it.Leads l)
    (held : ∀ s, l.openSession? (Store.isClosed σ) = some s → it.Taken store s)
    (bare : l.openSession? (Store.isClosed σ) = none → it.Dialled (Store.dial store l.node).1) (random : Nat) :
    it.Reaches l (l.start random store) := by
  unfold Loop.start
  cases session : l.openSession? (Store.isClosed σ) with
  | some s => exact reaches_use leads (held s session) random
  | none =>
      have dialled := bare session
      simp only
      cases dial : Store.dial store l.node with
      | mk store' latency =>
          rw [dial] at dialled
          cases latency with
          | none => exact reaches_connected leads dialled random
          | some latency => exact .dialled latency dialled

theorem reaches_resume (leads : it.Leads l) {point : Point κ π} (resumes : it.Resumes store point)
    (expired : Bool) (random : Nat) : it.Reaches l (l.resume point expired random store) := by
  cases point with
  | backingOff => exact absurd resumes id
  | rollingBack s point => exact reaches_ofRollback leads resumes random
  | working s current point rest => exact reaches_plan leads resumes
  | connecting =>
      simp only [Loop.resume]
      split
      · exact .ended (leads.expired resumes)
      · exact reaches_connected leads resumes random

end Itinerary

end LedgerDrill.Workload
