import LedgerDrill.Proofs.Cluster.Prepared
import LedgerDrill.Proofs.Experiment.Outage
import LedgerDrill.Proofs.Workload.Drill

namespace LedgerDrill

def Turn.pending? {σ κ π : Type} (turn : Turn σ κ π) : Option (κ × π) :=
  match turn.next with
  | .answered _ => none
  | .waiting _ point => some (turn.session, point)

/-! ## Sessions -/

namespace Cluster

def Line.shown? (line : Line) : Option (Session × Waiting) :=
  line.pending.map fun pending => (line.session, pending.2)

theorem shown?_ofTurn (statement : Statement) (turn : SessionTurn) :
    (Line.ofTurn statement turn).shown? = turn.pending? := by
  unfold Line.ofTurn Turn.pending?
  cases turn.next <;> rfl

theorem Line.id?_eq (line : Line) : line.id? = line.shown?.bind (·.2.id?) := by
  obtain ⟨s, pending⟩ := line
  cases pending <;> rfl

theorem Line.prepared?_eq (line : Line) : line.prepared? = line.shown?.bind (·.2.prepared?) := by
  obtain ⟨s, pending⟩ := line
  cases pending <;> rfl

/-- Besides what its commits own, the cluster holds what some changes have made. -/
structure Traffic.Lawful (t : Traffic) : Prop where
  kept : t.Kept
  faithful : ∃ changes, Ledger.Faithful ⟨t.cluster, changes⟩

variable {c c' c'' : Cluster} {s : Session} {w : Waiting} {before between after : Option (Session × Waiting)}

theorem faithful_start (statement : Statement) (s : Session)
    (faithful : ∃ changes, Ledger.Faithful ⟨c, changes⟩) :
    ∃ changes, Ledger.Faithful ⟨(startStatement statement c s).store, changes⟩ := by
  obtain ⟨changes, faithful⟩ := faithful
  have made : (Ledger.after ⟨c, changes⟩ (startCalls s statement)).cluster = (startStatement statement c s).store :=
    Ledger.cluster_startCalls statement
  rw [← made]
  exact ⟨_, faithful.after (startCalls s statement)⟩

theorem faithful_resume (w : Waiting) (s : Session) (faithful : ∃ changes, Ledger.Faithful ⟨c, changes⟩) :
    ∃ changes, Ledger.Faithful ⟨(resumeStatement w c s).store, changes⟩ := by
  obtain ⟨changes, faithful⟩ := faithful
  have made : (Ledger.after ⟨c, changes⟩ (w.calls c s)).cluster = (resumeStatement w c s).store :=
    Ledger.cluster_calls w
  rw [← made]
  exact ⟨_, faithful.after (w.calls c s)⟩

/-- Whatever else is under way, a session may take the cluster from one state to another, and from one
statement to another. -/
def Advances (c : Cluster) (before : Option (Session × Waiting)) (c' : Cluster)
    (after : Option (Session × Waiting)) : Prop :=
  ∀ (t : Traffic) (i : Nat) (line : Line), t.Lawful → t.cluster = c → t.lines[i]? = some line →
    line.shown? = before → ∃ (t' : Traffic) (line' : Line), t'.Lawful ∧ t'.cluster = c' ∧
      t'.lines = t.lines.set i line' ∧ line'.shown? = after

theorem Advances.refl (c : Cluster) (before : Option (Session × Waiting)) : Advances c before c before := by
  intro t i line lawful cluster found shown
  obtain ⟨bound, rfl⟩ := List.getElem?_eq_some_iff.mp found
  exact ⟨t, _, lawful, cluster, (List.set_getElem_self bound).symm, shown⟩

theorem Advances.trans (first : Advances c before c' between) (second : Advances c' between c'' after) :
    Advances c before c'' after := by
  intro t i line lawful cluster found shown
  obtain ⟨t', line', lawful', cluster', lines', shown'⟩ := first t i line lawful cluster found shown
  have found' : t'.lines[i]? = some line' := by
    rw [lines', List.getElem?_set_self (List.getElem?_eq_some_iff.mp found).1]
  obtain ⟨t'', line'', lawful'', cluster'', lines'', shown''⟩ :=
    second t' i line' lawful' cluster' found' shown'
  exact ⟨t'', line'', lawful'', cluster'', by rw [lines'', lines', List.set_set], shown''⟩

theorem advances_start (statement : Statement) (c : Cluster) (s : Session) :
    Advances c none (startStatement statement c s).store (startStatement statement c s).pending? := by
  rintro t i line lawful rfl found shown
  have idle : line.pending = none := Option.map_eq_none_iff.mp shown
  have located : (t.lines.set i ⟨s, none⟩)[i]? = some ⟨s, none⟩ :=
    List.getElem?_set_self (List.getElem?_eq_some_iff.mp found).1
  have changed : Traffic.Kept { t with lines := t.lines.set i ⟨s, none⟩ } := by
    refine lawful.kept.beside (Thins.refl t.cluster) fun j other busy => ?_
    by_cases same : i = j
    · subst same
      rw [located, found]
      constructor
      · rintro ⟨⟩
        exact absurd rfl busy
      · rintro ⟨⟩
        exact absurd idle busy
    · rw [List.getElem?_set_ne same]
  refine ⟨_, Line.ofTurn statement (startStatement statement t.cluster s),
    ⟨changed.issue located statement [], faithful_start statement s lawful.faithful⟩, rfl, ?_,
    shown?_ofTurn statement _⟩
  exact List.set_set ..

theorem advances_resume (loaded : w.Loaded) (c : Cluster) (s : Session) :
    Advances c (some (s, w)) (resumeStatement w c s).store (Turn.pending? (resumeStatement w c s)) := by
  rintro t i ⟨s', pending⟩ lawful rfl found shown
  obtain ⟨⟨statement, w'⟩, rfl, same⟩ := Option.map_eq_some_iff.mp shown
  cases same
  exact ⟨_, _, ⟨lawful.kept.resume found (Or.inr loaded) [], faithful_resume _ _ lawful.faithful⟩, rfl, rfl,
    shown?_ofTurn statement _⟩

end Cluster

namespace Workload
open Cluster Outcome

variable {c c' : Cluster} {s : Session} {w : Waiting} {before : Option (Session × Waiting)}

/-! ## Bodies -/

def PlanTurn.pending? {σ κ π : Type} (turn : PlanTurn σ κ π) : Option (κ × π) :=
  match turn.next with
  | .answered _ => none
  | .waiting _ _ point _ => some (turn.session, point)

theorem advances_ofTurn {turn : SessionTurn} {rest : List Statement}
    (first : Advances c before turn.store turn.pending?) (current : Statement)
    (later : ∀ reply c' s', Advances c' none (startPlan rest reply c' s').store (startPlan rest reply c' s').pending?) :
    Advances c before (PlanTurn.ofTurn current rest turn (startPlan rest)).store
      (PlanTurn.ofTurn current rest turn (startPlan rest)).pending? := by
  obtain ⟨c', s', next⟩ := turn
  cases next with
  | waiting latency w => exact first
  | answered answer =>
      cases checked : answer.bind (checkReply current) with
      | error e =>
          rw [PlanTurn.ofTurn_failed checked]
          exact first
      | ok reply =>
          rw [PlanTurn.ofTurn_passed checked]
          exact first.trans (later reply c' s')

theorem advances_startPlan (statements : List Statement) (last : Reply) (c : Cluster) (s : Session) :
    Advances c none (startPlan statements last c s).store (startPlan statements last c s).pending? := by
  induction statements generalizing last c s with
  | nil => exact Advances.refl c none
  | cons current rest ih => exact advances_ofTurn (advances_start current c s) current ih

/-! ## Loops -/

namespace Point

def pending? : Point Session Waiting → Option (Session × Waiting)
  | .rollingBack s w | .working s _ w _ => some (s, w)
  | .connecting | .backingOff => none

def Plain (kind : LoopKind) : Point Session Waiting → Prop
  | .rollingBack _ w => w = .reaching .rollback
  | .working _ _ w rest => kind = .sumTotal → w = .reaching .total ∧ rest = []
  | .connecting | .backingOff => True

variable {point : Point Session Waiting} {l : Loop Session}

theorem loaded (home : point.AtHome l) (plain : point.Plain l.kind) (waits : point.pending? = some (s, w)) :
    w.Loaded := by
  cases point with
  | connecting | backingOff => cases waits
  | rollingBack =>
      cases waits
      exact plain ▸ trivial
  | working s current w rest =>
      cases waits
      cases kind : l.kind with
      | sumTotal => exact (plain kind).1 ▸ trivial
      | transfer =>
          cases home.2 kind with
          | reaching => trivial
          | commit carries => exact carries.loaded

end Point

def LoopNext.pending? : LoopNext Session Waiting → Option (Session × Waiting)
  | .done => none
  | .waiting _ point => point.pending?

/-- What a step of a loop is to the sessions. -/
structure Strides (c : Cluster) (before : Option (Session × Waiting)) (kind : LoopKind)
    (turn : LoopTurn Cluster Session Waiting) : Prop where
  advances : Advances c before turn.store turn.next.pending?
  plain : ∀ wait point, turn.next = .waiting wait point → point.Plain kind

variable {l : Loop Session} {random : Nat}

theorem strides_conclude (ended : Advances c before c' none) (session : Option Session) (answer : Answer) :
    Strides c before l.kind (l.conclude c' session answer) := by
  cases answer with
  | error e =>
      refine ⟨ended, ?_⟩
      rintro _ _ ⟨⟩
      trivial
  | ok reply =>
      obtain ⟨changed, ending⟩ := l.body.conclude_ok reply
      simp only [Loop.conclude, ending]
      refine ⟨ended, ?_⟩
      rintro _ _ ⟨⟩

theorem strides_ofPlanTurn {turn : PlanTurn Cluster Session Waiting}
    (advances : Advances c before turn.store turn.pending?)
    (plain : ∀ latency current w rest, turn.next = .waiting latency current w rest → l.kind = .sumTotal →
      w = .reaching .total ∧ rest = []) : Strides c before l.kind (l.ofPlanTurn turn) := by
  obtain ⟨c', s', next⟩ := turn
  cases next with
  | answered answer => exact strides_conclude advances (some s') answer
  | waiting latency current w rest =>
      refine ⟨advances, ?_⟩
      rintro _ _ ⟨⟩
      exact plain _ _ _ _ rfl

theorem plain_startTotal {latency : Latency} {current : Statement} {rest : List Statement} {last : Reply}
    (waits : (startPlan [.total] last c s).next = .waiting latency current w rest) :
    w = .reaching .total ∧ rest = [] := by
  have unfolded : startPlan [.total] last c s =
      .ofTurn .total [] (startStatement .total c s) (startPlan []) := rfl
  have known := starts .total c s
  rw [unfolded] at waits
  generalize startStatement .total c s = turn at known waits
  cases known with
  | closed | refused => cases waits
  | sends =>
      cases waits
      exact ⟨rfl, rfl⟩

theorem strides_work (advances : Advances c before c' none) (l : Loop Session) (random : Nat) (s : Session) :
    Strides c before l.kind (l.work random c' s) := by
  unfold Loop.work
  cases plan : l.body.plan random with
  | error e => exact strides_conclude advances (some s) (.error e)
  | ok statements =>
      refine strides_ofPlanTurn (advances.trans (advances_startPlan statements .done c' s)) ?_
      intro latency current w rest waits kind
      cases body : l.body with
      | transfer accounts amount =>
          rw [Loop.kind, body] at kind
          cases kind
      | sumTotal watch =>
          rw [body] at plan
          cases plan
          exact plain_startTotal waits

theorem strides_ofRollback {turn : SessionTurn} (advances : Advances c before turn.store turn.pending?)
    (plain : ∀ latency w, turn.next = .waiting latency w → w = .reaching .rollback) (l : Loop Session)
    (random : Nat) : Strides c before l.kind (l.ofRollback random turn) := by
  obtain ⟨c', s', next⟩ := turn
  cases next with
  | waiting latency w =>
      refine ⟨advances, ?_⟩
      rintro _ _ ⟨⟩
      exact plain _ _ rfl
  | answered answer =>
      cases answer with
      | error e => exact strides_conclude advances (some s') (.error e)
      | ok reply => exact strides_work advances l random s'

theorem strides_use (l : Loop Session) (random : Nat) (c : Cluster) (s : Session) :
    Strides c none l.kind (l.use random c s) := by
  unfold Loop.use
  split
  · exact strides_work (Advances.refl c none) l random s
  · refine strides_ofRollback (advances_start .rollback c s) (fun latency w waits => ?_) l random
    have known := starts .rollback c s
    change (startStatement .rollback c s).next = _ at waits
    generalize startStatement .rollback c s = turn at known waits
    cases known with
    | closed | refused => cases waits
    | sends =>
        cases waits
        rfl

theorem strides_connected (l : Loop Session) (random : Nat) (c : Cluster) :
    Strides c none l.kind (l.connected random c) := by
  rcases l.connected_cases random c with ⟨e, -, refused⟩ | ⟨s, -, accepted⟩
  · rw [refused]
    exact strides_conclude (Advances.refl c none) none (.error e)
  · rw [accepted]
    exact strides_use l random c s

theorem strides_start (l : Loop Session) (random : Nat) (c : Cluster) :
    Strides c none l.kind (l.start random c) := by
  rcases l.start_cases random c with ⟨s, -, begins⟩ | begins | ⟨wait, begins⟩ <;> rw [begins]
  · exact strides_use l random c s
  · exact strides_connected l random c
  · refine ⟨Advances.refl c none, ?_⟩
    rintro _ _ ⟨⟩
    trivial

theorem strides_resume {point : Point Session Waiting} (home : point.AtHome l) (plain : point.Plain l.kind)
    (expired : Bool) (random : Nat) (c : Cluster) :
    Strides c point.pending? l.kind (l.resume point expired random c) := by
  have loaded {s : Session} {w : Waiting} (waits : point.pending? = some (s, w)) : w.Loaded :=
    Point.loaded home plain waits
  cases point with
  | connecting =>
      simp only [Loop.resume]
      split
      · exact strides_conclude (Advances.refl c none) none _
      · exact strides_connected l random c
  | backingOff =>
      refine ⟨Advances.refl c none, ?_⟩
      rintro _ _ ⟨⟩
  | rollingBack s w =>
      refine strides_ofRollback (advances_resume (loaded rfl) c s) (fun latency w' waits => ?_) l random
      obtain rfl := plain
      cases waits
  | working s current w rest =>
      have advances := advances_ofTurn (advances_resume (loaded rfl) c s) current fun reply c' s' =>
        advances_startPlan rest reply c' s'
      refine strides_ofPlanTurn advances ?_
      intro latency current' w' rest' waits kind
      obtain ⟨rfl, rfl⟩ := plain kind
      have known := executes c s .total
      change (PlanTurn.ofTurn current [] (execute c s .total) (startPlan [])).next = _ at waits
      generalize execute c s .total = turn at known waits
      cases known with
      | refused => cases waits
      | totals =>
          simp only [PlanTurn.ofTurn, answered] at waits
          split at waits <;> cases waits

/-! ## Tasks -/

namespace Task

def pending? : Task Session Waiting → Option (Session × Waiting)
  | .statement s w => some (s, w)
  | .iteration i | .running i _ _ => i.point.pending?
  | .resting .. => none

/-- The transaction of the commit that the task waits in. -/
def id? (task : Task Session Waiting) : Option TransactionId := task.pending?.bind (·.2.id?)

/-- The same, if the commit waits between its two phases. -/
def prepared? (task : Task Session Waiting) : Option TransactionId := task.pending?.bind (·.2.prepared?)

theorem id?_of_prepared? {task : Task Session Waiting} {id : TransactionId} (prepared : task.prepared? = some id) :
    task.id? = some id := by
  obtain ⟨pending, pends, waits⟩ := Option.bind_eq_some_iff.mp prepared
  refine Option.bind_eq_some_iff.mpr ⟨pending, pends, ?_⟩
  obtain ⟨s, w⟩ := pending
  cases w with
  | applying => exact waits
  | reaching | preparing | tearing => cases waits

def Ready : Task Session Waiting → Prop
  | .running i _ _ => i.loop.AtHome ∧ i.point.AtHome i.loop ∧ i.point.Plain i.loop.kind
  | .resting loop _ _ => loop.AtHome
  | .iteration _ | .statement .. => False

variable {task : Task Session Waiting}

theorem Ready.setFlag (ready : task.Ready) (value : Bool) : (task.setFlag value).Ready := by
  cases task <;> exact ready

theorem pending?_setFlag (task : Task Session Waiting) (value : Bool) :
    (task.setFlag value).pending? = task.pending? := by
  cases task <;> rfl

theorem pending?_ofRun (flag : Bool) (completed : Nat) (started : Instant) (loop : Loop Session)
    (next : LoopNext Session Waiting) :
    (Course.ofRun flag completed started loop next).task?.bind pending? = next.pending? := by
  cases next <;> rfl

theorem ready_ofRun {turn : LoopTurn Cluster Session Waiting} (stayed : Stayed c l turn)
    (strides : Strides c before l.kind turn) (flag : Bool) (completed : Nat) (started : Instant)
    (next : (Course.ofRun flag completed started turn.loop turn.next).task? = some task) : task.Ready := by
  have kind : turn.loop.kind = l.kind := congrArg Key.kind stayed.key
  cases goesOn : turn.next with
  | done =>
      rw [goesOn] at next
      cases next
      exact stayed.home
  | waiting wait point =>
      rw [goesOn] at next
      cases next
      exact ⟨stayed.home, stayed.next wait point goesOn, kind ▸ strides.plain wait point goesOn⟩

theorem Ready.resume (ready : task.Ready) (shared : Shared Cluster) (expired : Bool) (random : Nat)
    (now : Instant) :
    Advances shared.store task.pending? (shared.resume task expired random now).1.store
      ((shared.resume task expired random now).2.task?.bind pending?) ∧
    ∀ task', (shared.resume task expired random now).2.task? = some task' → task'.Ready := by
  cases task with
  | statement | iteration => contradiction
  | running i flag completed =>
      obtain ⟨home, there, plain⟩ := ready
      have stayed := stayed_resume home there expired random shared.store
      have strides := strides_resume there plain expired random shared.store
      refine ⟨?_, fun task' => ready_ofRun stayed strides flag completed i.started⟩
      exact (pending?_ofRun flag completed i.started _ _).symm ▸ strides.advances
  | resting loop flag completed =>
      cases flag with
      | false => exact ⟨Advances.refl shared.store none, fun _ => nofun⟩
      | true =>
          have stayed := stayed_start ready random shared.store
          have strides := strides_start loop random shared.store
          refine ⟨?_, fun task' => ready_ofRun stayed strides true completed now⟩
          exact (pending?_ofRun true completed now _ _).symm ▸ strides.advances

end Task

/-! ## Drills -/

namespace Drill

variable {d : Drill} {t : Traffic} {dropped : List (Nat × Task Session Waiting)}

def loses (d : Drill) : Event → List (Nat × Task Session Waiting)
  | .abort i => ((d.runners[i]?.bind (·.task)).map (i, ·)).toList
  | _ => []

/-- The lines of the sessions show the statements of the loops, in the same order. An aborted loop still
shows where it was. -/
structure Carried (dropped : List (Nat × Task Session Waiting)) (d : Drill) (t : Traffic) : Prop where
  cluster : t.cluster = d.shared.store
  lawful : t.Lawful
  length : t.lines.length = d.runners.length
  ready : ∀ (i : Nat) (runner : Runner) (task : Task Session Waiting), d.runners[i]? = some runner →
    runner.task = some task → task.Ready
  shown : ∀ (i : Nat) (runner : Runner) (line : Line), d.runners[i]? = some runner →
    t.lines[i]? = some line → line.shown? = (runner.task.or (dropped.lookup i)).bind Task.pending?
  gone : ∀ (i : Nat) (task : Task Session Waiting), dropped.lookup i = some task →
    ∃ runner, d.runners[i]? = some runner ∧ runner.task = none

theorem carried_start {c : Cluster} (owns : Owns c fun _ => False)
    (faithful : ∃ changes, Ledger.Faithful ⟨c, changes⟩) (registry : Outcome.Registry) (calls : List Call) :
    ({ shared := { store := c, registry }, calls } : Drill).Carried [] { cluster := c } where
  cluster := rfl
  lawful := ⟨Traffic.kept_idle owns, faithful⟩
  length := rfl
  ready i runner task found := by simp at found
  shown i runner line found := by simp at found
  gone i task := nofun

theorem Carried.lookup_eq_none (carried : d.Carried dropped t) {i : Nat} {runner : Runner}
    {task : Task Session Waiting} (found : d.runners[i]? = some runner) (hasTask : runner.task = some task) :
    dropped.lookup i = none := by
  refine Option.eq_none_iff_forall_ne_some.mpr fun task' left => ?_
  obtain ⟨runner', found', none⟩ := carried.gone i task' left
  cases found.symm.trans found'
  cases hasTask.symm.trans none

theorem Carried.beside (carried : d.Carried dropped t) {d' : Drill} (runners : d'.runners = d.runners)
    (thins : Thins d.shared.store d'.shared.store)
    (faithful : ∀ changes, Ledger.Faithful ⟨d.shared.store, changes⟩ →
      ∃ changes', Ledger.Faithful ⟨d'.shared.store, changes'⟩) :
    d'.Carried dropped { t with cluster := d'.shared.store } := by
  obtain ⟨changes, known⟩ := carried.lawful.faithful
  rw [← carried.cluster] at thins faithful
  refine ⟨rfl, ⟨carried.lawful.kept.beside thins fun _ _ _ => Iff.rfl, faithful changes known⟩, ?_, ?_, ?_, ?_⟩
  · rw [runners]
    exact carried.length
  · rw [runners]
    exact carried.ready
  · rw [runners]
    exact carried.shown
  · rw [runners]
    exact carried.gone

theorem getElem?_concat_eq_some {α : Type} {l : List α} {a b : α} {i : Nat} :
    (l ++ [a])[i]? = some b ↔ l[i]? = some b ∨ i = l.length ∧ b = a := by
  rw [List.getElem?_append]
  split
  · next inside =>
      have apart : i ≠ l.length := Nat.ne_of_lt inside
      simp [apart]
  · next outside =>
      have none : l[i]? = none := List.getElem?_eq_none (Nat.not_lt.mp outside)
      rw [none, List.getElem?_singleton]
      by_cases last : i = l.length
      · simp [last, eq_comm]
      · have beyond : i - l.length ≠ 0 := by omega
        simp [last, beyond]

theorem Carried.launch (carried : d.Carried dropped t) (node : Nat) (body : Body) (settings : Settings) :
    ∃ t', (d.step (.launch node body settings)).Carried dropped t' := by
  refine ⟨{ t with lines := t.lines ++ [⟨{ node, epoch := 0 }, none⟩] }, carried.cluster,
    ⟨carried.lawful.kept.beside (Thins.refl _) fun i line busy => ?_, carried.lawful.faithful⟩, ?_, ?_, ?_, ?_⟩
  · rw [getElem?_concat_eq_some]
    refine or_iff_left ?_
    rintro ⟨-, rfl⟩
    exact busy rfl
  · simp [Drill.step, carried.length]
  · intro i runner task found hasTask
    rcases getElem?_concat_eq_some.mp found with before | ⟨-, rfl⟩
    · exact carried.ready i runner task before hasTask
    · cases hasTask
      exact nofun
  · intro i runner line found located
    rcases getElem?_concat_eq_some.mp found with before | ⟨last, rfl⟩
    · have bound := (List.getElem?_eq_some_iff.mp before).1
      rcases getElem?_concat_eq_some.mp located with there | ⟨rfl, -⟩
      · exact carried.shown i runner line before there
      · exact absurd bound (carried.length ▸ Nat.lt_irrefl _)
    · rcases getElem?_concat_eq_some.mp located with there | ⟨-, rfl⟩
      · have bound := (List.getElem?_eq_some_iff.mp there).1
        rw [carried.length, last] at bound
        exact absurd bound (Nat.lt_irrefl _)
      · rfl
  · intro i task left
    obtain ⟨runner, found, none⟩ := carried.gone i task left
    exact ⟨runner, getElem?_concat_eq_some.mpr (Or.inl found), none⟩

theorem Carried.set (carried : d.Carried dropped t) {i : Nat} {runner : Runner}
    (found : d.runners[i]? = some runner) {task : Task Session Waiting} (hasTask : runner.task = some task)
    {d' : Drill} {next : Runner} (runners : d'.runners = d.runners.set i next)
    (advances : Advances d.shared.store task.pending? d'.shared.store (next.task.bind Task.pending?))
    (ready : ∀ task', next.task = some task' → task'.Ready) : ∃ t', d'.Carried dropped t' := by
  have bound := (List.getElem?_eq_some_iff.mp found).1
  have unmarked := carried.lookup_eq_none found hasTask
  obtain ⟨line, located⟩ : ∃ line, t.lines[i]? = some line :=
    ⟨_, List.getElem?_eq_getElem (carried.length ▸ bound)⟩
  have shown := carried.shown i runner line found located
  rw [hasTask, Option.some_or, Option.bind_some] at shown
  obtain ⟨t', line', lawful, cluster, lines, shown'⟩ :=
    advances t i line carried.lawful carried.cluster located shown
  -- One runner and one line change, and they are those of the same number.
  refine ⟨t', cluster, lawful, ?_, ?_, ?_, ?_⟩
  · rw [lines, runners, List.length_set, List.length_set, carried.length]
  · intro j other task' found' hasTask'
    rw [runners, List.getElem?_set] at found'
    split at found'
    · cases found'
      exact ready task' hasTask'
    · exact carried.ready j other task' found' hasTask'
  · intro j other line'' found' located'
    rw [lines] at located'
    rw [runners] at found'
    by_cases same : i = j
    · subst same
      rw [List.getElem?_set_self bound] at found'
      rw [List.getElem?_set_self (carried.length ▸ bound)] at located'
      cases found'
      cases located'
      rw [unmarked, Option.or_none]
      exact shown'
    · rw [List.getElem?_set_ne same] at found' located'
      exact carried.shown j other line'' found' located'
  · intro j task' left
    obtain ⟨other, found', none⟩ := carried.gone j task' left
    have apart : i ≠ j := by
      rintro rfl
      rw [unmarked] at left
      cases left
    exact ⟨other, by rw [runners, List.getElem?_set_ne apart, found'], none⟩

theorem retask_of_none {i : Nat} (idle : d.runners[i]?.bind (·.task) = none)
    (f : Task Session Waiting → Option (Task Session Waiting)) : d.retask i f = d := by
  unfold retask
  cases found : d.runners[i]? with
  | none => rfl
  | some runner =>
      rw [found] at idle
      have none : runner.task = none := idle
      obtain ⟨bound, rfl⟩ := List.getElem?_eq_some_iff.mp found
      simp only
      rw [none, Option.bind_none, ← none, List.set_getElem_self]

theorem retask_of_some {i : Nat} {runner : Runner} {task : Task Session Waiting}
    (found : d.runners[i]? = some runner) (hasTask : runner.task = some task)
    (f : Task Session Waiting → Option (Task Session Waiting)) :
    d.retask i f = { d with runners := d.runners.set i { runner with task := f task } } := by
  simp [retask, found, hasTask]

theorem getElem?_retask (d : Drill) (i : Nat) (f : Task Session Waiting → Option (Task Session Waiting)) (j : Nat) :
    (d.retask i f).runners[j]? =
      d.runners[j]?.map fun r => if i = j then { r with task := r.task.bind f } else r := by
  unfold retask
  cases found : d.runners[i]? with
  | none =>
      by_cases same : i = j
      · subst same
        simp [found]
      · simp [same]
  | some runner =>
      obtain ⟨bound, -⟩ := List.getElem?_eq_some_iff.mp found
      by_cases same : i = j
      · subst same
        rw [List.getElem?_set_self bound, found]
        simp
      · simp [List.getElem?_set_ne same, same]

theorem Carried.abort (carried : d.Carried dropped t) (i : Nat) :
    (d.step (.abort i)).Carried (dropped ++ d.loses (.abort i)) t := by
  simp only [Drill.step, loses]
  cases aborted : d.runners[i]?.bind (·.task) with
  | none =>
      rw [retask_of_none aborted]
      exact (List.append_nil dropped).symm ▸ carried
  | some task =>
      obtain ⟨runner, found, hasTask⟩ := Option.bind_eq_some_iff.mp aborted
      have bound := (List.getElem?_eq_some_iff.mp found).1
      have unmarked := carried.lookup_eq_none found hasTask
      -- The line stays as it is: what the runner had under way is now under way in `dropped`.
      have marked : (dropped ++ [(i, task)]).lookup i = some task := by
        simp [List.lookup_append, unmarked]
      have others {j : Nat} (apart : i ≠ j) : (dropped ++ [(i, task)]).lookup j = dropped.lookup j := by
        have other : (j == i) = false := beq_eq_false_iff_ne.mpr apart.symm
        rw [List.lookup_append, List.lookup_cons, other, List.lookup_nil]
        exact Option.or_none
      rw [retask_of_some found hasTask]
      refine ⟨carried.cluster, carried.lawful, ?_, ?_, ?_, ?_⟩
      · rw [List.length_set]
        exact carried.length
      · intro j other task' found' hasTask'
        rw [List.getElem?_set] at found'
        split at found'
        · cases found'
          cases hasTask'
        · exact carried.ready j other task' found' hasTask'
      · intro j other line found' located
        by_cases same : i = j
        · subst same
          rw [List.getElem?_set_self bound] at found'
          cases found'
          rw [Option.map_some, Option.toList_some, marked, Option.none_or, ← hasTask]
          have shown := carried.shown i runner line found located
          rwa [unmarked, Option.or_none] at shown
        · rw [List.getElem?_set_ne same] at found'
          rw [Option.map_some, Option.toList_some, others same]
          exact carried.shown j other line found' located
      · intro j task' left
        by_cases same : i = j
        · subst same
          exact ⟨_, List.getElem?_set_self bound, rfl⟩
        · rw [Option.map_some, Option.toList_some, others same] at left
          obtain ⟨other, found', none⟩ := carried.gone j task' left
          exact ⟨other, (List.getElem?_set_ne same).trans found', none⟩

theorem Carried.step (carried : d.Carried dropped t) (event : Event) :
    ∃ t', (d.step event).Carried (dropped ++ d.loses event) t' := by
  have same : dropped ++ [] = dropped := List.append_nil dropped
  cases event with
  | abort i => exact ⟨t, carried.abort i⟩
  | launch node body settings => exact same.symm ▸ carried.launch node body settings
  | fault fault =>
      have faulty : (d.step (.fault fault)).Carried dropped _ := carried.beside rfl (thins_inject fault d.shared.store)
        fun changes known => ⟨changes, known.keep (keeps_inject fault _)⟩
      exact ⟨_, same.symm ▸ faulty⟩
  | takeSnapshot now =>
      have taken : (d.step (.takeSnapshot now)).Carried dropped _ := carried.beside rfl (Thins.refl d.shared.store)
        fun changes known => ⟨changes, known⟩
      exact ⟨_, same.symm ▸ taken⟩
  | setFlag i value =>
      change ∃ t', (d.retask i fun task => some (task.setFlag value)).Carried (dropped ++ []) t'
      rw [same]
      cases flown : d.runners[i]?.bind (·.task) with
      | none => exact ⟨t, (retask_of_none flown _).symm ▸ carried⟩
      | some task =>
          obtain ⟨runner, found, hasTask⟩ := Option.bind_eq_some_iff.mp flown
          have advances := Advances.refl d.shared.store task.pending?
          nth_rewrite 2 [← task.pending?_setFlag value] at advances
          rw [retask_of_some found hasTask]
          refine carried.set found hasTask rfl advances ?_
          rintro _ ⟨⟩
          exact (carried.ready i runner task found hasTask).setFlag value
  | wake i expired random now =>
      change ∃ t', (d.step (.wake i expired random now)).Carried (dropped ++ []) t'
      rw [same]
      simp only [Drill.step]
      split
      · next runner found =>
          split
          · next task hasTask =>
              have resumed := (carried.ready i runner task found hasTask).resume d.shared expired random now
              exact carried.set found hasTask rfl resumed.1 resumed.2
          · exact ⟨t, carried⟩
      · exact ⟨t, carried⟩

/-- What is prepared on a node that is up belongs to a loop that waits between the phases of its commit, or
that was aborted there. -/
theorem Carried.owns (carried : d.Carried dropped t) :
    Owns d.shared.store fun id => ∃ (i : Nat) (runner : Runner) (task : Task Session Waiting),
      d.runners[i]? = some runner ∧ runner.task.or (dropped.lookup i) = some task ∧ task.prepared? = some id := by
  refine carried.cluster ▸ carried.lawful.kept.owns.imp ?_
  rintro id ⟨i, line, located, waits⟩
  have bound := (List.getElem?_eq_some_iff.mp located).1
  have found := List.getElem?_eq_getElem (carried.length ▸ bound)
  rw [Line.prepared?_eq, carried.shown i _ line found located] at waits
  obtain ⟨pending, shown, prepared⟩ := Option.bind_eq_some_iff.mp waits
  obtain ⟨task, left, pends⟩ := Option.bind_eq_some_iff.mp shown
  exact ⟨i, _, task, found, left, Option.bind_eq_some_iff.mpr ⟨pending, pends, prepared⟩⟩

theorem Carried.apart (carried : d.Carried dropped t) {i j : Nat} {runner other : Runner}
    {task task' : Task Session Waiting} {id : TransactionId} (found : d.runners[i]? = some runner)
    (left : runner.task.or (dropped.lookup i) = some task) (carries : task.id? = some id)
    (found' : d.runners[j]? = some other) (left' : other.task.or (dropped.lookup j) = some task')
    (carries' : task'.id? = some id) : i = j := by
  have shows {i : Nat} {runner : Runner} {task : Task Session Waiting} (found : d.runners[i]? = some runner)
      (left : runner.task.or (dropped.lookup i) = some task) (carries : task.id? = some id) :
      ∃ line, t.lines[i]? = some line ∧ line.id? = some id := by
    have bound := (List.getElem?_eq_some_iff.mp found).1
    have located := List.getElem?_eq_getElem (carried.length ▸ bound)
    refine ⟨_, located, ?_⟩
    rw [Line.id?_eq, carried.shown i runner _ found located, left]
    exact carries
  obtain ⟨line, located, own⟩ := shows found left carries
  obtain ⟨line', located', own'⟩ := shows found' left' carries'
  exact carried.lawful.kept.apart i j line line' id located located' own own'

end Drill

end Workload

end LedgerDrill
