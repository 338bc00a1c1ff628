import LedgerDrill.Proofs.Cluster.Errors
import LedgerDrill.Proofs.Cluster.Rows
import LedgerDrill.Proofs.Workload.Outage

namespace LedgerDrill.Workload
open Cluster

variable {rows : Nat → Prop} {c c' : Cluster} {s s' : Session} {current : Statement} {rest : List Statement}
variable {w : Waiting} {latency : Latency} {e : StoreError} {reply : Reply}

/-! ## Bodies -/

inductive Before (rows : Nat → Prop) (s : Session) : List Statement → Prop
  | all {source target : Nat} {delta delta' : Int} (idle : s.status = .idle) (row : rows source)
      (row' : rows target) : Before rows s [.begin, .add source delta, .add target delta', .commit]
  | take {source target : Nat} {delta delta' : Int} (inside : s.status = .inTransaction) (row : rows source)
      (row' : rows target) : Before rows s [.add source delta, .add target delta', .commit]
  | give {target : Nat} {delta : Int} (inside : s.status = .inTransaction) (row : rows target) :
      Before rows s [.add target delta, .commit]
  | last (inside : s.status = .inTransaction) : Before rows s [.commit]
  | total (idle : s.status = .idle) : Before rows s [.total]

inductive During (rows : Nat → Prop) (s : Session) : Statement → Waiting → List Statement → Prop
  | reaching {current : Statement} {rest : List Statement} (before : Before rows s (current :: rest))
      (notCommit : current ≠ .commit) : During rows s current (.reaching current) rest
  | committing {w : Waiting} {id : TransactionId} (own : w.id? = some id) (home : id.node = s.node) :
      During rows s .commit w []

theorem During.notCreate (during : During rows s current w rest) (n : Nat) : w ≠ .reaching (.create n) := by
  rintro rfl
  cases during with
  | reaching before => cases before
  | committing own => cases own

structure Held (rows : Nat → Prop) (c : Cluster) (s : Session) (turn : PlanTurn Cluster Session Waiting) :
    Prop where
  steady : Steady c turn.store
  node : turn.session.node = s.node
  during : ∀ latency current w rest, turn.next = .waiting latency current w rest →
    During rows turn.session current w rest
  expected : c.Rowed rows → ∀ e, turn.next = .answered (.error e) → Expected s.node e

theorem Held.behind {turn : PlanTurn Cluster Session Waiting} (steady : Steady c c') (node : s'.node = s.node)
    (held : Held rows c' s' turn) : Held rows c s turn where
  steady := steady.trans held.steady
  node := held.node.trans node
  during := held.during
  expected rowed e failed := node ▸ held.expected (steady.rowed rows rowed) e failed

theorem held_failed (steady : Steady c c') (node : s'.node = s.node) (known : c.Rowed rows → Expected s.node e) :
    Held rows c s ⟨c', s', .answered (.error e)⟩ where
  steady := steady
  node := node
  during _ _ _ _ := nofun
  expected rowed _ same := by cases same; exact known rowed

theorem held_start (before : Before rows s (current :: rest)) (last : Reply) (c : Cluster) :
    Held rows c s (startPlan (current :: rest) last c s) := by
  have unfolded : startPlan (current :: rest) last c s =
      .ofTurn current rest (startStatement current c s) (startPlan rest) := rfl
  have steady := steady_start current c s
  have known := starts current c s
  rw [unfolded]
  generalize startStatement current c s = turn at steady known ⊢
  cases known with
  | closed => exact held_failed steady rfl fun _ => .closed
  | refused _ broken =>
      cases before with
      | all status | take status | give status | last status | total status => cases status.symm.trans broken
  | idle _ outside => cases before with | last inside => cases inside.symm.trans outside
  | gaveUp _ broken => cases before with | last inside => cases inside.symm.trans broken
  | commits =>
      cases before with
      | last =>
          refine ⟨steady, rfl, ?_, fun _ _ => nofun⟩
          rintro _ _ _ _ ⟨⟩
          exact .committing rfl rfl
  | sends _ notCommit =>
      refine ⟨steady, rfl, ?_, fun _ _ => nofun⟩
      rintro _ _ _ _ ⟨⟩
      exact .reaching before notCommit

theorem held_ended (steady : Steady c c') (node : s'.node = s.node) (reply : Reply) :
    Held rows c s ⟨c', s', .answered (.ok reply)⟩ :=
  ⟨steady, node, fun _ _ _ _ => nofun, fun _ _ => nofun⟩

theorem held_next {next : Statement} (steady : Steady c c') (node : s'.node = s.node)
    (before : Before rows s' (next :: rest)) (passes : checkReply current reply = .ok reply) :
    Held rows c s (.ofTurn current (next :: rest) (answered c' s' (.ok reply)) (startPlan (next :: rest))) := by
  have passed : (Except.ok reply : Answer).bind (checkReply current) = .ok reply := passes
  rw [answered, PlanTurn.ofTurn_passed passed]
  exact (held_start before reply c').behind steady node

theorem held_add {uid : Nat} {delta : Int} (inside : s.status = .inTransaction) (row : rows uid)
    (later : ∀ writes, Before rows { s with writes } (current :: rest)) (c : Cluster) :
    Held rows c s (resumePlan (.add uid delta) (.reaching (.add uid delta)) (current :: rest) c s) := by
  have unfolded : resumePlan (.add uid delta) (.reaching (.add uid delta)) (current :: rest) c s =
      .ofTurn (.add uid delta) (current :: rest) (execute c s (.add uid delta)) (startPlan (current :: rest)) := rfl
  have notCreate (n : Nat) : Waiting.reaching (.add uid delta) ≠ .reaching (.create n) := nofun
  have steady : Steady c (execute c s (.add uid delta)).store := steady_resume notCreate c s
  have known := executes c s (.add uid delta)
  rw [unfolded]
  generalize execute c s (.add uid delta) = turn at steady known ⊢
  cases known with
  | refused _ error => exact held_failed steady (node_fail s _) fun _ => expected_serve error
  | commits _ _ outside => exact absurd inside outside
  | buffers => exact held_next steady rfl (later _) rfl
  | misses served absent =>
      refine held_failed steady rfl fun rowed => ?_
      rw [rowed.accountsOf served row] at absent
      contradiction

theorem held_reaching (before : Before rows s (current :: rest)) (notCommit : current ≠ .commit) (c : Cluster) :
    Held rows c s (resumePlan current (.reaching current) rest c s) := by
  have unfolded : resumePlan current (.reaching current) rest c s =
      .ofTurn current rest (execute c s current) (startPlan rest) := rfl
  have steady : Steady c (execute c s current).store :=
    steady_resume (During.reaching before notCommit).notCreate c s
  have known := executes c s current
  cases before with
  | last => contradiction
  | take inside row row' => exact held_add inside row (fun _ => .give inside row') c
  | give inside row => exact held_add inside row (fun _ => .last inside) c
  | all idle row row' =>
      rw [unfolded]
      generalize execute c s .begin = turn at steady known ⊢
      cases known with
      | refused _ error => exact held_failed steady (node_fail s _) fun _ => expected_serve error
      | begins => exact held_next steady rfl (.take rfl row row') rfl
  | total =>
      rw [unfolded]
      generalize execute c s .total = turn at steady known ⊢
      cases known with
      | refused _ error => exact held_failed steady (node_fail s _) fun _ => expected_serve error
      | totals => exact held_ended steady rfl _

theorem held_committing {id : TransactionId} (own : w.id? = some id) (home : id.node = s.node) (c : Cluster) :
    Held rows c s (resumePlan .commit w [] c s) := by
  have unfolded : resumePlan .commit w [] c s = .ofTurn .commit [] (resumeStatement w c s) (startPlan []) := rfl
  have during : During rows s .commit w [] := .committing own home
  have steady := steady_resume during.notCreate c s
  have node := (settled_resume w c s).node
  have waits {latency : Latency} {w' : Waiting} (next : (resumeStatement w c s).next = .waiting latency w') :=
    id?_resume own next
  have fails {e : StoreError} (next : (resumeStatement w c s).next = .answered (.error e)) :=
    expected_commit own next
  rw [unfolded]
  generalize resumeStatement w c s = turn at steady node waits fails ⊢
  obtain ⟨c', s', next⟩ := turn
  cases next with
  | waiting latency w' =>
      refine ⟨steady, node, ?_, fun _ _ => nofun⟩
      rintro _ _ _ _ ⟨⟩
      exact .committing (waits rfl) (home.trans node.symm)
  | answered answer =>
      cases answer with
      | error e => exact held_failed steady node fun _ => home ▸ fails rfl
      | ok reply => exact held_ended steady node reply

theorem held_resume (during : During rows s current w rest) (c : Cluster) :
    Held rows c s (resumePlan current w rest c s) := by
  cases during with
  | reaching before notCommit => exact held_reaching before notCommit c
  | committing own home => exact held_committing own home c

/-! ## Loops -/

def Body.Within (rows : Nat → Prop) : Body → Prop
  | .transfer accounts _ => ∀ random, rows (drawSource accounts random) ∧ rows (drawSource accounts random + 1)
  | .sumTotal _ => True

def Body.Able : Body → Prop
  | .transfer accounts _ => 3 ≤ accounts
  | .sumTotal _ => True

inductive Body.Remains : Body → Body → Prop
  | same {body : Body} : Remains body body
  | watched {watch watch' : Watch} : Remains (.sumTotal watch) (.sumTotal watch')

theorem Body.Remains.within {body body' : Body} (remains : body.Remains body') (within : body.Within rows) :
    body'.Within rows := by
  cases remains with
  | same => exact within
  | watched => trivial

theorem Body.Remains.able {body body' : Body} (remains : body.Remains body') (able : body.Able) : body'.Able := by
  cases remains with
  | same => exact able
  | watched => trivial

theorem Body.remains_conclude (body : Body) (answer : Answer) : body.Remains (body.conclude answer).1 := by
  unfold Body.conclude
  split
  · exact .same
  · split
    · exact .watched
    · exact .same
  · exact .same

def Point.Regular (rows : Nat → Prop) (node : Nat) : Point Session Waiting → Prop
  | .connecting | .backingOff => True
  | .rollingBack s w => s.node = node ∧ w = .reaching .rollback
  | .working s current w rest => s.node = node ∧ During rows s current w rest

structure Ran (rows : Nat → Prop) (c : Cluster) (l : Loop Session) (turn : LoopTurn Cluster Session Waiting) :
    Prop where
  steady : Steady c turn.store
  node : turn.loop.node = l.node
  body : l.body.Remains turn.loop.body
  home : turn.loop.AtHome
  next : ∀ wait point, turn.next = .waiting wait point → point.Regular rows l.node
  expected : l.body.Able → l.node < c.size → c.Rowed rows → ∀ e, turn.ending = some (.error e) → Expected l.node e

variable {l : Loop Session} {session : Option Session}

theorem ran_failed (steady : Steady c c') (home : ∀ s, session = some s → s.node = l.node)
    (known : l.body.Able → l.node < c.size → c.Rowed rows → Expected l.node e) :
    Ran rows c l (l.conclude c' session (.error e)) where
  steady := steady
  node := rfl
  body := .same
  home s kept := home s (Option.filter_eq_some_iff.mp kept).1
  next _ _ same := by cases same; trivial
  expected able bound rowed _ same := by cases same; exact known able bound rowed

theorem ran_completed (steady : Steady c c') (home : ∀ s, session = some s → s.node = l.node) (reply : Reply) :
    Ran rows c l (l.conclude c' session (.ok reply)) := by
  have remains := l.body.remains_conclude (.ok reply)
  obtain ⟨changed, ending⟩ := l.body.conclude_ok reply
  simp only [Loop.conclude, ending]
  refine ⟨steady, rfl, remains, home, ?_, ?_⟩
  · rintro _ _ ⟨⟩
  · rintro _ _ _ _ ⟨⟩

theorem ran_waiting (steady : Steady c c') {wait : Wait} {point : Point Session Waiting}
    (regular : point.Regular rows l.node) :
    Ran rows c l ⟨c', { l with session := none }, none, .waiting wait point⟩ where
  steady := steady
  node := rfl
  body := .same
  home := nofun
  next _ _ same := by cases same; exact regular
  expected _ _ _ _ := nofun

theorem ran_ofPlanTurn {turn : PlanTurn Cluster Session Waiting} (node : s.node = l.node)
    (held : Held rows c s turn) : Ran rows c l (l.ofPlanTurn turn) := by
  obtain ⟨c', s', next⟩ := turn
  have here : s'.node = l.node := held.node.trans node
  have home (s'' : Session) (same : some s' = some s'') : s''.node = l.node := Option.some.inj same ▸ here
  cases next with
  | waiting latency current w rest => exact ran_waiting held.steady ⟨here, held.during _ _ _ _ rfl⟩
  | answered answer =>
      cases answer with
      | error e => exact ran_failed held.steady home fun _ _ rowed => node ▸ held.expected rowed e rfl
      | ok reply => exact ran_completed held.steady home reply

variable {random : Nat}

theorem ran_work (within : l.body.Within rows) (node : s.node = l.node) (idle : s.status = .idle)
    (random : Nat) (c : Cluster) : Ran rows c l (l.work random c s) := by
  have home (s' : Session) (same : some s = some s') : s'.node = l.node := Option.some.inj same ▸ node
  obtain ⟨ofNode, body, settings, session⟩ := l
  cases body with
  | sumTotal watch => exact ran_ofPlanTurn node (held_start (.total idle) .done c)
  | transfer accounts amount =>
      simp only [Loop.work, Body.plan]
      by_cases few : accounts < 3
      · simp only [few, ↓reduceIte]
        exact ran_failed (Steady.refl c) home fun able => absurd few (Nat.not_lt.mpr able)
      · simp only [few, ↓reduceIte]
        obtain ⟨row, row'⟩ := within random
        exact ran_ofPlanTurn node (held_start (.all idle row row') .done c)

theorem ran_use (within : l.body.Within rows) (node : s.node = l.node) (random : Nat) (c : Cluster) :
    Ran rows c l (l.use random c s) := by
  unfold Loop.use
  split
  · next idle => exact ran_work within node idle random c
  · have home (s' : Session) (same : some s = some s') : s'.node = l.node := Option.some.inj same ▸ node
    have known := starts .rollback c s
    change Ran rows c l (l.ofRollback random (startStatement .rollback c s))
    generalize startStatement .rollback c s = turn at known
    cases known with
    | closed => exact ran_failed (Steady.refl c) home fun _ _ _ => .closed
    | refused _ _ other => exact absurd rfl other.2
    | sends => exact ran_waiting (Steady.refl c) ⟨node, rfl⟩

theorem ran_connected (within : l.body.Within rows) (random : Nat) (c : Cluster) :
    Ran rows c l (l.connected random c) := by
  rcases l.connected_cases random c with ⟨e, opened, refused⟩ | ⟨s, node, accepted⟩
  · rw [refused]
    exact ran_failed (Steady.refl c) nofun fun _ bound _ => expected_openSession bound opened
  · rw [accepted]
    exact ran_use within node random c

theorem ran_start (within : l.body.Within rows) (home : l.AtHome) (random : Nat) (c : Cluster) :
    Ran rows c l (l.start random c) := by
  rcases l.start_cases random c with ⟨s, left, begins⟩ | begins | ⟨wait, begins⟩ <;> rw [begins]
  · exact ran_use within (home s left) random c
  · exact ran_connected within random c
  · exact ran_waiting (Steady.refl c) trivial

theorem ran_resume {point : Point Session Waiting} (within : l.body.Within rows) (home : l.AtHome)
    (regular : point.Regular rows l.node) (expired : Bool) (random : Nat) (c : Cluster) :
    Ran rows c l (l.resume point expired random c) := by
  cases point with
  | connecting =>
      simp only [Loop.resume]
      split
      · refine ran_failed (Steady.refl c) ?_ fun _ _ _ => .expired
        rintro _ ⟨⟩
      · exact ran_connected within random c
  | rollingBack s w =>
      obtain ⟨node, rfl⟩ := regular
      exact ran_work (s := { s with writes := [], status := .idle }) within node rfl random c
  | working s current w rest => exact ran_ofPlanTurn regular.1 (held_resume regular.2 c)
  | backingOff =>
      refine ⟨Steady.refl c, rfl, .same, home, ?_, ?_⟩
      · rintro _ _ ⟨⟩
      · rintro _ _ _ _ ⟨⟩

/-! ## Tasks -/

def Task.Regular (rows : Nat → Prop) : Task Session Waiting → Prop
  | .running i _ _ => i.loop.AtHome ∧ i.loop.body.Within rows ∧ i.point.Regular rows i.loop.node
  | .resting loop _ _ => loop.AtHome ∧ loop.body.Within rows
  | .iteration _ | .statement .. => False

def Task.Able (size : Nat) : Task Session Waiting → Prop
  | .running i _ _ => i.loop.body.Able ∧ i.loop.node < size
  | .resting loop _ _ => loop.body.Able ∧ loop.node < size
  | .iteration _ | .statement .. => False

theorem Task.Regular.setFlag {task : Task Session Waiting} (regular : task.Regular rows) (value : Bool) :
    (task.setFlag value).Regular rows := by
  cases task <;> exact regular

theorem Task.Able.setFlag {task : Task Session Waiting} {size : Nat} (able : task.Able size) (value : Bool) :
    (task.setFlag value).Able size := by
  cases task <;> exact able

theorem regular_ofRun {turn : LoopTurn Cluster Session Waiting} (ran : Ran rows c l turn)
    (within : l.body.Within rows) (flag : Bool) (completed : Nat) (started : Outcome.Instant) {wait : Wait}
    {task : Task Session Waiting}
    (goesOn : Course.ofRun flag completed started turn.loop turn.next = .waiting wait task) :
    task.Regular rows ∧ ∀ size, l.body.Able → l.node < size → task.Able size := by
  have able (size : Nat) (enough : l.body.Able) (bound : l.node < size) :
      turn.loop.body.Able ∧ turn.loop.node < size := ⟨ran.body.able enough, ran.node ▸ bound⟩
  cases next : turn.next with
  | done =>
      rw [next] at goesOn
      cases goesOn
      exact ⟨⟨ran.home, ran.body.within within⟩, able⟩
  | waiting wait' point =>
      rw [next] at goesOn
      cases goesOn
      exact ⟨⟨ran.home, ran.body.within within, ran.node ▸ ran.next _ _ next⟩, able⟩

theorem Task.Regular.resume {task : Task Session Waiting} (regular : task.Regular rows) (shared : Shared Cluster)
    (expired : Bool) (random : Nat) (now : Outcome.Instant) :
    Steady shared.store (shared.resume task expired random now).1.store ∧
    ∀ wait task', (shared.resume task expired random now).2 = .waiting wait task' →
      task'.Regular rows ∧ ∀ size, task.Able size → task'.Able size := by
  cases task with
  | statement | iteration => contradiction
  | running i flag completed =>
      obtain ⟨home, within, point⟩ := regular
      have ran := ran_resume within home point expired random shared.store
      refine ⟨ran.steady, fun wait task' goesOn => ?_⟩
      obtain ⟨regular', able⟩ := regular_ofRun ran within flag completed i.started goesOn
      exact ⟨regular', fun size known => able size known.1 known.2⟩
  | resting loop flag completed =>
      obtain ⟨home, within⟩ := regular
      cases flag with
      | false => exact ⟨Steady.refl _, fun _ _ => nofun⟩
      | true =>
          have ran := ran_start within home random shared.store
          refine ⟨ran.steady, fun wait task' goesOn => ?_⟩
          obtain ⟨regular', able⟩ := regular_ofRun ran within true completed now goesOn
          exact ⟨regular', fun size known => able size known.1 known.2⟩

end LedgerDrill.Workload
