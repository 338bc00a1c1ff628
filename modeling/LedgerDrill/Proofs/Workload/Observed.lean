import LedgerDrill.Workload.Task

namespace LedgerDrill
open Workload

/-- What is done with a store. Sessions are numbered as they are opened. -/
inductive Deed
  | dialled (node : Nat)
  | opened (id : Nat)
  /-- A statement is sent on a session that is in this state. -/
  | sent (id : Nat) (statement : Statement) (status : TxStatus) (closed : Bool)
  | told (id : Nat) (statement : Statement) (answer : Answer)

structure Observed (σ : Type) where
  store : σ
  deeds : List Deed := []
  opened : Nat := 0

namespace Observed

variable {σ κ π : Type}

structure Session (κ : Type) where
  session : κ
  id : Nat

def note (o : Observed σ) (store : σ) (deeds : List Deed) : Observed σ :=
  { o with store, deeds := o.deeds ++ deeds }

def turn (o : Observed σ) (id : Nat) (statement : Statement) (turn : Turn σ κ π) :
    Turn (Observed σ) (Session κ) (Statement × π) :=
  match turn.next with
  | .answered answer =>
    ⟨o.note turn.store [.told id statement answer], ⟨turn.session, id⟩, .answered answer⟩
  | .waiting latency point =>
    ⟨o.note turn.store [], ⟨turn.session, id⟩, .waiting latency (statement, point)⟩

theorem turn_cases (o : Observed σ) (id : Nat) (statement : Statement) (t : Turn σ κ π) :
    (∃ store session answer, t = ⟨store, session, .answered answer⟩ ∧
      o.turn id statement t = ⟨o.note store [.told id statement answer], ⟨session, id⟩, .answered answer⟩) ∨
    ∃ store session latency point, t = ⟨store, session, .waiting latency point⟩ ∧
      o.turn id statement t = ⟨o.note store [], ⟨session, id⟩, .waiting latency (statement, point)⟩ := by
  obtain ⟨store, session, next⟩ := t
  cases next with
  | answered answer => exact Or.inl ⟨store, session, answer, rfl, rfl⟩
  | waiting latency point => exact Or.inr ⟨store, session, latency, point, rfl, rfl⟩

variable [Store σ κ π]

def sent (o : Observed σ) (statement : Statement) (s : Session κ) : Observed σ :=
  o.note o.store [.sent s.id statement (Store.status σ s.session) (Store.isClosed σ s.session)]

instance : Store (Observed σ) (Session κ) (Statement × π) where
  size o := Store.size o.store
  dial o node :=
    let (store, latency) := Store.dial o.store node
    (o.note store [.dialled node], latency)
  accept o node :=
    match Store.accept o.store node with
    | (store, .error e) => (o.note store [], .error e)
    | (store, .ok session) =>
      ({ o.note store [.opened o.opened] with opened := o.opened + 1 }, .ok ⟨session, o.opened⟩)
  node s := Store.node σ s.session
  isClosed s := Store.isClosed σ s.session
  status s := Store.status σ s.session
  start statement o s := (o.sent statement s).turn s.id statement (Store.start statement o.store s.session)
  resume := fun (statement, point) o s => o.turn s.id statement (Store.resume point o.store s.session)
  waits := fun (_, point) => Store.waits σ point
  losesLoop o node := Store.losesLoop o.store node
  losesWorker o := Store.losesWorker o.store

theorem accept_error {o o' : Observed σ} {node : Nat} {e : StoreError}
    (refused : Store.accept o node = (o', .error e)) : ∃ store, o' = o.note store [] := by
  simp only [Store.accept] at refused
  split at refused <;> cases refused
  exact ⟨_, rfl⟩

theorem accept_ok {o o' : Observed σ} {node : Nat} {s : Session κ} (accepted : Store.accept o node = (o', .ok s)) :
    ∃ store session, Store.accept o.store node = (store, .ok session) ∧ s = ⟨session, o.opened⟩ ∧
      o' = ⟨store, o.deeds ++ [.opened o.opened], o.opened + 1⟩ := by
  simp only [Store.accept] at accepted
  split at accepted <;> cases accepted
  next result => exact ⟨_, _, result, rfl, rfl⟩

end Observed

/-! ## Without the observer -/

section
variable {σ κ π : Type}

def Next.plain : Next (Statement × π) → Next π
  | .answered answer => .answered answer
  | .waiting latency (_, point) => .waiting latency point

def Turn.plain (turn : Turn (Observed σ) (Observed.Session κ) (Statement × π)) : Turn σ κ π :=
  ⟨turn.store.store, turn.session.session, turn.next.plain⟩

namespace Workload

def Progress.plain : Progress (Statement × π) → Progress π
  | .answered answer => .answered answer
  | .waiting latency current (_, point) rest => .waiting latency current point rest

def PlanTurn.plain (turn : PlanTurn (Observed σ) (Observed.Session κ) (Statement × π)) : PlanTurn σ κ π :=
  ⟨turn.store.store, turn.session.session, turn.next.plain⟩

def Loop.plain (l : Loop (Observed.Session κ)) : Loop κ := { l with session := l.session.map (·.session) }

def Point.plain : Point (Observed.Session κ) (Statement × π) → Point κ π
  | .connecting => .connecting
  | .rollingBack s (_, point) => .rollingBack s.session point
  | .working s current (_, point) rest => .working s.session current point rest
  | .backingOff => .backingOff

def LoopNext.plain : LoopNext (Observed.Session κ) (Statement × π) → LoopNext κ π
  | .done => .done
  | .waiting wait point => .waiting wait point.plain

def LoopTurn.plain (turn : LoopTurn (Observed σ) (Observed.Session κ) (Statement × π)) : LoopTurn σ κ π :=
  ⟨turn.store.store, turn.loop.plain, turn.ending, turn.next.plain⟩

def Iteration.plain (i : Iteration (Observed.Session κ) (Statement × π)) : Iteration κ π :=
  ⟨i.loop.plain, i.started, i.point.plain⟩

def Task.plain : Task (Observed.Session κ) (Statement × π) → Task κ π
  | .statement s (_, point) => .statement s.session point
  | .iteration i => .iteration i.plain
  | .running i flag completed => .running i.plain flag completed
  | .resting l flag completed => .resting l.plain flag completed

def Landing.plain : Landing (Observed.Session κ) → Landing κ
  | .statement s answer => .statement s.session answer
  | .iteration l => .iteration l.plain
  | .run iterations => .run iterations

def Course.plain : Course (Observed.Session κ) (Statement × π) → Course κ π
  | .landed landing => .landed landing.plain
  | .waiting wait task => .waiting wait task.plain

def Shared.plain (shared : Shared (Observed σ)) : Shared σ := ⟨shared.store.store, shared.registry⟩

end Workload

theorem plain_turn (o : Observed σ) (id : Nat) (statement : Statement) (turn : Turn σ κ π) :
    (o.turn id statement turn).plain = turn := by
  obtain ⟨store, session, next⟩ := turn
  cases next <;> rfl

theorem Workload.plain_ofTurn {current : Statement} {rest : List Statement}
    {turn : Turn (Observed σ) (Observed.Session κ) (Statement × π)}
    {advance : Reply → Observed σ → Observed.Session κ → PlanTurn (Observed σ) (Observed.Session κ) (Statement × π)}
    {advance' : Reply → σ → κ → PlanTurn σ κ π}
    (same : ∀ reply o s, (advance reply o s).plain = advance' reply o.store s.session) :
    (PlanTurn.ofTurn current rest turn advance).plain = .ofTurn current rest turn.plain advance' := by
  obtain ⟨o, s, next⟩ := turn
  cases next with
  | waiting latency point => rfl
  | answered answer =>
      simp only [PlanTurn.ofTurn, Turn.plain, Next.plain]
      cases answer.bind (checkReply current) with
      | error e => rfl
      | ok reply => exact same reply o s

variable [Store σ κ π] {random : Nat}

theorem plain_start (statement : Statement) (o : Observed σ) (s : Observed.Session κ) :
    (Store.start statement o s).plain = Store.start statement o.store s.session :=
  plain_turn _ _ _ _

theorem plain_resume (point : Statement × π) (o : Observed σ) (s : Observed.Session κ) :
    (Store.resume point o s).plain = Store.resume point.2 o.store s.session :=
  plain_turn _ _ _ _

namespace Workload

theorem plain_startPlan (statements : List Statement) (last : Reply) (o : Observed σ) (s : Observed.Session κ) :
    (startPlan statements last o s).plain = startPlan statements last o.store s.session := by
  induction statements generalizing last o s with
  | nil => rfl
  | cons current rest ih => rw [startPlan, plain_ofTurn ih, plain_start, startPlan]

theorem plain_resumePlan (current : Statement) (point : Statement × π) (rest : List Statement) (o : Observed σ)
    (s : Observed.Session κ) :
    (resumePlan current point rest o s).plain = resumePlan current point.2 rest o.store s.session := by
  rw [resumePlan, plain_ofTurn (plain_startPlan rest), plain_resume, resumePlan]

theorem plain_filter (session : Option (Observed.Session κ)) :
    (session.filter (!Store.isClosed (Observed σ) ·)).map (·.session) =
      (session.map (·.session)).filter (!Store.isClosed σ ·) := by
  rw [Option.filter_map]
  rfl

theorem plain_conclude (l : Loop (Observed.Session κ)) (o : Observed σ) (session : Option (Observed.Session κ))
    (answer : Answer) :
    (l.conclude o session answer).plain = l.plain.conclude o.store (session.map (·.session)) answer := by
  simp only [Loop.conclude, Loop.plain, ← plain_filter]
  cases (l.body.conclude answer).2 <;> rfl

theorem plain_ofPlanTurn (l : Loop (Observed.Session κ))
    (turn : PlanTurn (Observed σ) (Observed.Session κ) (Statement × π)) :
    (l.ofPlanTurn turn).plain = l.plain.ofPlanTurn turn.plain := by
  obtain ⟨o, s, next⟩ := turn
  cases next with
  | answered answer => exact plain_conclude l o (some s) answer
  | waiting latency current point rest => rfl

theorem plain_work (l : Loop (Observed.Session κ)) (o : Observed σ) (s : Observed.Session κ) :
    (l.work random o s).plain = l.plain.work random o.store s.session := by
  unfold Loop.work
  have body : l.plain.body = l.body := rfl
  rw [body]
  cases l.body.plan random with
  | error e => exact plain_conclude l o (some s) _
  | ok statements => rw [plain_ofPlanTurn, plain_startPlan]

theorem plain_ofRollback (l : Loop (Observed.Session κ))
    (turn : Turn (Observed σ) (Observed.Session κ) (Statement × π)) :
    (l.ofRollback random turn).plain = l.plain.ofRollback random turn.plain := by
  obtain ⟨o, s, next⟩ := turn
  cases next with
  | waiting latency point => rfl
  | answered answer =>
      cases answer with
      | error e => exact plain_conclude l o (some s) _
      | ok reply => exact plain_work l o s

theorem plain_use (l : Loop (Observed.Session κ)) (o : Observed σ) (s : Observed.Session κ) :
    (l.use random o s).plain = l.plain.use random o.store s.session := by
  unfold Loop.use
  have status : Store.status (Observed σ) s = Store.status σ s.session := rfl
  rw [status]
  split
  · exact plain_work l o s
  · rw [plain_ofRollback, plain_start]

theorem plain_connected (l : Loop (Observed.Session κ)) (o : Observed σ) :
    (l.connected random o).plain = l.plain.connected random o.store := by
  simp only [Loop.connected, Store.accept]
  have node : l.plain.node = l.node := rfl
  rw [node]
  cases Store.accept o.store l.node with
  | mk store result =>
      cases result with
      | error e => exact plain_conclude l _ none _
      | ok session => exact plain_use l _ _

theorem plain_loopStart (l : Loop (Observed.Session κ)) (o : Observed σ) :
    (l.start random o).plain = l.plain.start random o.store := by
  have held : l.plain.openSession? (Store.isClosed σ) = _ := (plain_filter l.session).symm
  unfold Loop.start
  rw [held, ← Loop.openSession?]
  cases l.openSession? (Store.isClosed (Observed σ)) with
  | some s => exact plain_use l o s
  | none =>
      have node : l.plain.node = l.node := rfl
      simp only [Store.dial, Option.map_none, node]
      cases Store.dial o.store l.node with
      | mk store latency =>
          cases latency with
          | none => exact plain_connected l _
          | some latency => rfl

theorem plain_loopResume (l : Loop (Observed.Session κ)) (point : Point (Observed.Session κ) (Statement × π))
    (expired : Bool) (o : Observed σ) :
    (l.resume point expired random o).plain = l.plain.resume point.plain expired random o.store := by
  cases point with
  | backingOff => rfl
  | rollingBack s point =>
      simp only [Loop.resume, Point.plain]
      rw [plain_ofRollback, plain_resume]
  | working s current point rest =>
      simp only [Loop.resume, Point.plain]
      rw [plain_ofPlanTurn, plain_resumePlan]
  | connecting =>
      simp only [Loop.resume, Point.plain]
      split
      · exact plain_conclude l o none _
      · exact plain_connected l o

/-! ## Tasks -/

variable {now : Outcome.Instant} (shared : Shared (Observed σ))

omit [Store σ κ π] in
theorem plain_ofStatement (turn : Turn (Observed σ) (Observed.Session κ) (Statement × π)) :
    (Course.ofStatement turn).plain = .ofStatement turn.plain := by
  obtain ⟨o, s, next⟩ := turn
  cases next <;> rfl

omit [Store σ κ π] in
theorem plain_ofRun (flag : Bool) (completed : Nat) (started : Outcome.Instant) (l : Loop (Observed.Session κ))
    (next : LoopNext (Observed.Session κ) (Statement × π)) :
    (Course.ofRun flag completed started l next).plain = .ofRun flag completed started l.plain next.plain := by
  cases next <;> rfl

omit [Store σ κ π] in
theorem plain_ofIteration (started : Outcome.Instant) (l : Loop (Observed.Session κ))
    (next : LoopNext (Observed.Session κ) (Statement × π)) :
    (Course.ofIteration started l next).plain = .ofIteration started l.plain next.plain := by
  cases next <;> rfl

/-- A shared store and registry, and what a task has come to, without the observer. -/
def plainly (result : Shared (Observed σ) × Course (Observed.Session κ) (Statement × π)) :
    Shared σ × Course κ π :=
  (result.1.plain, result.2.plain)

theorem plain_launchIteration (l : Loop (Observed.Session κ)) :
    plainly (shared.launchIteration l random now) = shared.plain.launchIteration l.plain random now := by
  simp only [plainly, Shared.launchIteration, Shared.startIteration, Shared.takeTurn, plain_ofIteration]
  rw [show shared.plain.store = shared.store.store from rfl, ← plain_loopStart]
  rfl

theorem plain_continueRun (l : Loop (Observed.Session κ)) (flag : Bool) (completed : Nat) :
    plainly (shared.continueRun l flag completed random now) =
      shared.plain.continueRun l.plain flag completed random now := by
  cases flag with
  | false => rfl
  | true =>
      simp only [plainly, Shared.continueRun, if_true, Shared.startIteration, Shared.takeTurn, plain_ofRun]
      rw [show shared.plain.store = shared.store.store from rfl, ← plain_loopStart]
      rfl

theorem plain_resumeTask (task : Task (Observed.Session κ) (Statement × π)) (expired : Bool) :
    plainly (shared.resume task expired random now) = shared.plain.resume task.plain expired random now := by
  cases task with
  | resting l flag completed => exact plain_continueRun shared l flag completed
  | statement s point =>
      simp only [plainly, Shared.resume, plain_ofStatement, Task.plain]
      rw [show shared.plain.store = shared.store.store from rfl, ← plain_resume]
      rfl
  | iteration i =>
      simp only [plainly, Shared.resume, Shared.resumeIteration, Shared.takeTurn, plain_ofIteration, Task.plain,
        Iteration.plain]
      rw [show shared.plain.store = shared.store.store from rfl, ← plain_loopResume]
      rfl
  | running i flag completed =>
      simp only [plainly, Shared.resume, Shared.resumeIteration, Shared.takeTurn, plain_ofRun, Task.plain,
        Iteration.plain]
      rw [show shared.plain.store = shared.store.store from rfl, ← plain_loopResume]
      rfl

end Workload

end

end LedgerDrill
