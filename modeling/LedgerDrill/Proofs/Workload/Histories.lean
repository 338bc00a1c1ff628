import LedgerDrill.Proofs.Workload.Lines
import LedgerDrill.Proofs.Workload.Soundness

namespace LedgerDrill
open Cluster (Session Waiting)

/-! ## Writes -/

namespace Cluster

def Change.writes? : Change → Option (List Write)
  | .write writes => some writes
  | .create _ => none

def Ledger.writes (l : Ledger) : List (List Write) := l.changes.filterMap Change.writes?

theorem filterMap_writes? (moves : List (List Write)) : (moves.map Change.write).filterMap Change.writes? = moves := by
  rw [List.filterMap_map]
  exact List.filterMap_some

theorem writes_after {calls : List Call} (silent : ∀ call ∈ calls, call.change?.bind Change.writes? = none)
    (l : Ledger) : (l.after calls).writes = l.writes := by
  induction calls generalizing l with
  | nil => rfl
  | cons call rest ih =>
      have first : (l.call call).writes = l.writes := by
        have none := silent call List.mem_cons_self
        simp only [Ledger.writes, Ledger.call, Ledger.changesOf, List.filterMap_append]
        split
        · cases changes : call.change? with
          | none => simp
          | some change =>
              rw [changes, Option.bind_some] at none
              simp [none]
        · simp
      exact (ih (fun other member => silent other (List.mem_cons_of_mem _ member)) _).trans first

theorem writes_executeCalls (statement : Statement) (c : Cluster) (s : Session) (l : Ledger) :
    (l.after (executeCalls c s statement)).writes = l.writes := by
  refine writes_after (fun call member => ?_) l
  cases statement with
  | add uid delta =>
      simp only [executeCalls] at member
      rcases List.mem_cons.mp member with rfl | later
      · rfl
      · split at later
        · split at later
          · cases later
          · cases List.mem_singleton.mp later
            rfl
        · cases later
  | commit | rollback => cases member
  | begin | total | create | digest | prepared =>
      cases List.mem_singleton.mp member
      rfl

end Cluster

namespace Workload
open Cluster Outcome

variable {n draw : Nat} {body : Body} {c : Cluster} {changes : List Change} {s : Session}
variable {block : Block} {current : Statement} {rest : List Statement} {w : Waiting}

/-! ## Steps on any cluster -/

theorem Stage.mono {m : Nat} (stage : Stage n draw body block current rest) (le : n ≤ m) :
    Stage m draw body block current rest := by
  cases stage with
  | begin => exact .begin
  | take => exact .take
  | give => exact .give
  | commit inside => exact .commit (Nat.le_trans inside le)
  | total => exact .total

theorem gives_transfer {accounts : Nat} {amount : Int}
    (stage : Stage n draw (.transfer accounts amount) block current rest)
    (enough : Body.drawSource accounts draw + 1 ≤ n) (waits : Waits block s current w) {reply : Reply}
    (answered : (resumeStatement w c s).next = .answered (.ok reply)) : Gives n current reply := by
  have counts {uid : Nat} {delta : Int} (inside : uid ≤ n)
      (answered : (execute c s (.add uid delta)).next = .answered (.ok reply)) : Gives n (.add uid delta) reply := by
    have known := executes c s (.add uid delta)
    generalize execute c s (.add uid delta) = turn at known answered
    cases known with
    | refused | commits => cases answered
    | misses =>
        cases answered
        exact Or.inl rfl
    | buffers =>
        cases answered
        exact Or.inr ⟨rfl, inside⟩
  cases waits with
  | preparing commits | applying commits =>
      cases commits with
      | block => trivial
      | single => cases stage
  | reaching =>
      cases stage with
      | begin | commit => trivial
      | take => exact counts (Nat.le_of_succ_le enough) answered
      | give => exact counts enough answered

def Stride.moves (stride : Stride) : List (List Write) := (stride.rounds 0 0).flatMap Round.writes

theorem Stride.flatMap_rounds (stride : Stride) (i node : Nat) :
    (stride.rounds i node).flatMap Round.writes = stride.moves := by
  obtain ⟨draw, calls, ending⟩ := stride
  cases ending <;> rfl

structure Applies (draw : Nat) (l : Ledger) (calls : List Call) (loop : Loop Session)
    (turn : LoopTurn Cluster Session Waiting) : Prop where
  made : l.after calls = ⟨turn.store, l.changes ++ (Stride.ofEnding draw calls loop.body turn.ending).moves.map .write⟩
  node : turn.loop.node = loop.node
  next : ∀ wait point, turn.next = .waiting wait point → ∃ n, point.Sound n draw turn.loop.body

variable {l : Ledger} {calls : List Call} {loop : Loop Session} {random : Nat}

theorem LoopStep.applies {turn : LoopTurn Cluster Session Waiting} (step : LoopStep n draw l calls loop turn) :
    Applies draw l calls loop turn := by
  obtain ⟨⟨moves, made, ends⟩, node, next⟩ := step
  refine ⟨?_, node, fun wait point same => ⟨n, next wait point same⟩⟩
  rw [made, ← Drill.flatMap_writes ends calls 0 0]
  rfl

theorem applies_total (plain : c.settings.torn = false) {watch : Watch} (watches : loop.body = .sumTotal watch)
    (waits : Waits block s .total w) :
    Applies draw ⟨c, changes⟩ (w.calls c s) loop (loop.ofPlanTurn (resumePlan .total w [] c s)) := by
  obtain ⟨made, changed, tells⟩ := tells_resume plain waits
  have store : (Ledger.after ⟨c, changes⟩ (w.calls c s)).cluster = (resumeStatement w c s).store :=
    Ledger.cluster_calls w
  have after : Ledger.after ⟨c, changes⟩ (w.calls c s) = ⟨(resumeStatement w c s).store, changes ++ made⟩ := by
    rw [← store, ← changed]
  change Applies draw ⟨c, changes⟩ _ loop (loop.ofPlanTurn (.ofTurn .total [] (resumeStatement w c s) (startPlan [])))
  clear store changed
  generalize w.calls c s = calls at after ⊢
  generalize resumeStatement w c s = turn at tells after ⊢
  obtain ⟨c', s', next⟩ := turn
  obtain ⟨node, _, settings, session⟩ := loop
  cases watches
  cases next with
  | waiting latency w' =>
      obtain ⟨rfl, waits'⟩ := tells
      refine ⟨after, rfl, ?_⟩
      rintro _ _ ⟨⟩
      exact ⟨0, block, .total, waits'⟩
  | answered answer =>
      obtain ⟨rfl, -⟩ := tells
      have concluded : Loop.ofPlanTurn { node, body := .sumTotal watch, settings, session }
          (.ofTurn .total [] ⟨c', s', .answered answer⟩ (startPlan [])) =
            Loop.conclude { node, body := .sumTotal watch, settings, session } c' (some s') answer := by
        cases answer with
        | error e => rfl
        | ok reply => rfl
      rw [concluded]
      cases answer with
      | error e => exact ⟨after, rfl, fun _ _ same => (by cases same; exact ⟨0, trivial⟩)⟩
      | ok reply =>
          cases reply <;> exact ⟨after, rfl, fun _ _ same => (by cases same)⟩

theorem Point.Sound.mono {m : Nat} {point : Point Session Waiting} (sound : point.Sound n draw body) (le : n ≤ m) :
    point.Sound m draw body := by
  cases point with
  | connecting | backingOff => trivial
  | rollingBack => exact sound
  | working =>
      obtain ⟨block, stage, waits⟩ := sound
      exact ⟨block, stage.mono le, waits⟩

theorem applies_resume (plain : c.settings.torn = false) (loop : Loop Session) (expired : Bool) (random : Nat)
    {point : Point Session Waiting} (sound : point.Sound n draw loop.body) :
    Applies (point.draw draw random) ⟨c, changes⟩ (point.calls c loop.node expired) loop
      (loop.resume point expired random c) := by
  cases body : loop.body with
  | transfer accounts amount =>
      have enough := Nat.le_max_right n (Body.drawSource accounts draw + 1)
      have sound' := sound.mono (Nat.le_max_left n (Body.drawSource accounts draw + 1))
      refine (loopStep_of_planStep plain loop expired random sound' fun s current w rest same => ?_).applies
      subst same
      rw [body] at sound' ⊢
      obtain ⟨block, stage, waits⟩ := sound'
      exact planStep_of_gives plain stage waits fun _ => gives_transfer stage enough waits
  | sumTotal watch =>
      cases point with
      | connecting | rollingBack | backingOff =>
          exact (loopStep_of_planStep plain loop expired random sound (fun _ _ _ _ => nofun)).applies
      | working s current w rest =>
          obtain ⟨block, stage, waits⟩ := sound
          rw [body] at stage
          cases stage
          simp only [Point.calls, Point.draw, followCalls, List.append_nil]
          exact applies_total plain body waits

theorem Applies.ofRun {node : Nat} {turn : LoopTurn Cluster Session Waiting}
    (applies : Applies draw l calls loop turn) (sameNode : loop.node = node)
    {flag : Bool} {completed : Nat} {started : Instant} (next : Task Session Waiting)
    (same : (Course.ofRun flag completed started turn.loop turn.next).task? = some next) :
    ∃ n body, next.Sound n draw node body := by
  have sameNode' := applies.node.trans sameNode
  cases h : turn.next with
  | done =>
      rw [h] at same
      cases same
      exact ⟨0, _, sameNode', rfl⟩
  | waiting wait point =>
      rw [h] at same
      cases same
      obtain ⟨n, sound⟩ := applies.next wait point h
      exact ⟨n, _, sameNode', rfl, sound⟩

/-! ## Drills -/

/-- Something that happens to a drill, or a statement that somebody makes besides. -/
inductive Incident
  | event (event : Event)
  | statement (s : Session) (statement : Statement)

namespace Drill

def fresh (settings : Cluster.Settings) : Drill := { shared := { store := .new settings } }

/-- A statement of somebody else at its node. -/
def tell (d : Drill) (s : Session) (statement : Statement) : Drill :=
  { d with
    shared := { d.shared with store := (execute d.shared.store s statement).store }
    calls := d.calls ++ executeCalls d.shared.store s statement }

def undergo (d : Drill) : Incident → Drill
  | .event event => d.step event
  | .statement s statement => d.tell s statement

def after (settings : Cluster.Settings) (history : List Incident) : Drill :=
  history.foldl undergo (fresh settings)

def lost (d : Drill) : List Incident → List (Nat × Task Session Waiting)
  | [] => []
  | .event event :: rest => d.loses event ++ (d.step event).lost rest
  | .statement s statement :: rest => (d.tell s statement).lost rest

variable {settings : Cluster.Settings} {d : Drill}

theorem carried_history {dropped : List (Nat × Task Session Waiting)} {t : Traffic} (carried : d.Carried dropped t)
    (history : List Incident) : ∃ t', (history.foldl undergo d).Carried (dropped ++ d.lost history) t' := by
  induction history generalizing d dropped t with
  | nil => exact ⟨t, (List.append_nil dropped).symm ▸ carried⟩
  | cons incident rest ih =>
      cases incident with
      | event event =>
          obtain ⟨t', carried'⟩ := carried.step event
          obtain ⟨t'', carried''⟩ := ih carried'
          exact ⟨t'', List.append_assoc dropped _ _ ▸ carried''⟩
      | statement s statement =>
          have told : (d.tell s statement).Carried dropped _ :=
            carried.beside rfl (thins_execute d.shared.store s statement) fun changes known =>
              faithful_resume (.reaching statement) s ⟨changes, known⟩
          exact ih told

theorem carried_after (settings : Cluster.Settings) (history : List Incident) :
    ∃ t, (after settings history).Carried ((fresh settings).lost history) t :=
  carried_history (carried_start (owns_new settings) ⟨[], Ledger.faithful_new settings⟩ {} []) history

theorem lost_eq_nil {history : List Incident} (none : ∀ i, .event (.abort i) ∉ history) : d.lost history = [] := by
  induction history generalizing d with
  | nil => rfl
  | cons incident rest ih =>
      have later : ∀ i, .event (.abort i) ∉ rest := fun i member => none i (List.mem_cons_of_mem _ member)
      cases incident with
      | statement s statement => exact ih later
      | event event =>
          have spared : d.loses event = [] := by
            cases event with
            | abort i => exact absurd List.mem_cons_self (none i)
            | launch | wake | setFlag | fault | takeSnapshot => rfl
          rw [lost, spared, List.nil_append]
          exact ih later

theorem exists_abort {history : List Incident} {i : Nat} {task : Task Session Waiting}
    (gone : (i, task) ∈ d.lost history) : ∃ before rest, history = before ++ .event (.abort i) :: rest ∧
      (before.foldl undergo d).runners[i]?.bind (·.task) = some task := by
  induction history generalizing d with
  | nil => cases gone
  | cons incident rest ih =>
      have later {d' : Drill} (same : d.undergo incident = d') (gone : (i, task) ∈ d'.lost rest) :
          ∃ before rest', incident :: rest = before ++ .event (.abort i) :: rest' ∧
            (before.foldl undergo d).runners[i]?.bind (·.task) = some task := by
        obtain ⟨before, rest', rfl, waits⟩ := ih gone
        exact ⟨incident :: before, rest', rfl, by rw [List.foldl_cons, same]; exact waits⟩
      cases incident with
      | statement s statement => exact later rfl gone
      | event event =>
          rcases List.mem_append.mp gone with now | after
          · cases event with
            | abort j =>
                obtain ⟨task', waits, same⟩ := Option.map_eq_some_iff.mp (Option.mem_toList.mp now)
                cases same
                exact ⟨[], rest, rfl, waits⟩
            | launch | wake | setFlag | fault | takeSnapshot => cases now
          · exact later rfl after

structure Applied (settings : Cluster.Settings) (d : Drill) : Prop where
  cluster : (d.ledger settings).cluster = d.shared.store
  writes : (d.ledger settings).writes = d.moves
  tasks : ∀ (i : Nat) (r : Runner) (task : Task Session Waiting), d.runners[i]? = some r → r.task = some task →
    ∃ n body, task.Sound n r.draw r.node body

theorem Applied.took (applied : d.Applied settings) {i : Nat} {next : Runner} (node : Nat) (stride : Stride)
    {d' : Drill} (calls : d'.calls = d.calls ++ stride.calls) (rounds : d'.rounds = d.rounds ++ stride.rounds i node)
    (runners : d'.runners = d.runners.set i next)
    (made : Ledger.after ⟨d.shared.store, (d.ledger settings).changes⟩ stride.calls =
      ⟨d'.shared.store, (d.ledger settings).changes ++ stride.moves.map .write⟩)
    (task : ∀ task, next.task = some task → ∃ n body, task.Sound n next.draw next.node body) : d'.Applied settings := by
  have ledger : d'.ledger settings = ⟨d'.shared.store, (d.ledger settings).changes ++ stride.moves.map .write⟩ := by
    have asked : d'.ledger settings = (d.ledger settings).after stride.calls := by
      rw [Drill.ledger, calls]
      exact Ledger.after_append _ d.calls stride.calls
    rw [asked, ← made, ← applied.cluster]
  refine ⟨by rw [ledger], ?_, fun j r task' found hasTask => ?_⟩
  · rw [ledger, Ledger.writes, List.filterMap_append, filterMap_writes?, moves, rounds, List.flatMap_append,
      stride.flatMap_rounds, ← Drill.moves, ← applied.writes, Ledger.writes]
  · rw [runners, List.getElem?_set] at found
    split at found
    · split at found
      · cases found
        exact task task' hasTask
      · cases found
    · exact applied.tasks j r task' found hasTask

theorem Applied.retask (applied : d.Applied settings) (i : Nat)
    {f : Task Session Waiting → Option (Task Session Waiting)}
    (keeps : ∀ (task next : Task Session Waiting) (n draw node : Nat) (body : Body),
      f task = some next → task.Sound n draw node body → next.Sound n draw node body) :
    (d.retask i f).Applied settings := by
  cases idle : d.runners[i]?.bind (·.task) with
  | none => exact (retask_of_none idle f).symm ▸ applied
  | some task =>
      obtain ⟨runner, found, hasTask⟩ := Option.bind_eq_some_iff.mp idle
      rw [retask_of_some found hasTask]
      refine applied.took runner.node { draw := runner.draw } (List.append_nil d.calls).symm
        (List.append_nil d.rounds).symm rfl ?_ fun next chosen => ?_
      · exact congrArg (Ledger.mk d.shared.store) (List.append_nil _).symm
      · obtain ⟨n, body, known⟩ := applied.tasks i runner task found hasTask
        exact ⟨n, body, keeps task next _ _ _ _ chosen known⟩

theorem Applied.advance (applied : d.Applied settings) (plain : settings.torn = false) {i : Nat} {runner : Runner}
    (found : d.runners[i]? = some runner) {task : Task Session Waiting} (hasTask : runner.task = some task)
    (expired : Bool) (random : Nat) (now : Instant) :
    (d.advance i runner task expired random now).Applied settings := by
  have plain' : d.shared.store.settings.torn = false := by
    rw [← applied.cluster]
    exact (congrArg (·.torn) (Ledger.settings_run settings d.calls)).trans plain
  obtain ⟨n, body, known⟩ := applied.tasks i runner task found hasTask
  cases task with
  | statement | iteration => cases known
  | running iteration flag completed =>
      obtain ⟨sameNode, rfl, point⟩ := known
      have applies : Applies _ ⟨d.shared.store, (d.ledger settings).changes⟩ _ iteration.loop _ :=
        applies_resume plain' iteration.loop expired random point
      exact applied.took runner.node _ rfl rfl rfl applies.made (applies.ofRun sameNode)
  | resting loop flag completed =>
      obtain ⟨sameNode, rfl⟩ := known
      cases flag with
      | true =>
          have applies : Applies random ⟨d.shared.store, (d.ledger settings).changes⟩ _ loop _ :=
            (loopStep_start (n := 0) loop random d.shared.store _).applies
          exact applied.took runner.node _ rfl rfl rfl applies.made (applies.ofRun sameNode)
      | false =>
          rw [Drill.advance_lowered found]
          exact applied.retask i fun _ _ _ _ _ _ same => (by cases same)

theorem Applied.step (applied : d.Applied settings) (plain : settings.torn = false) (event : Event) :
    (d.step event).Applied settings := by
  cases event with
  | launch node body loopSettings =>
      refine ⟨applied.cluster, applied.writes, fun i r task found hasTask => ?_⟩
      rcases getElem?_concat_eq_some.mp found with before | ⟨-, rfl⟩
      · exact applied.tasks i r task before hasTask
      · cases hasTask
        exact ⟨0, body, rfl, rfl⟩
  | wake i expired random now =>
      simp only [Drill.step]
      split
      · next runner found =>
          split
          · next task hasTask => exact applied.advance plain found hasTask expired random now
          · exact applied
      · exact applied
  | setFlag i value =>
      refine applied.retask i ?_
      rintro task next n draw node body ⟨⟩ known
      cases task <;> exact known
  | abort i => exact applied.retask i fun _ _ _ _ _ _ same => (by cases same)
  | fault fault =>
      have asked : (d.step (.fault fault)).ledger settings = (d.ledger settings).call (.fault fault) :=
        Ledger.after_append _ d.calls [.fault fault]
      refine ⟨?_, ?_, applied.tasks⟩
      · rw [asked, Ledger.cluster_call, applied.cluster]
        rfl
      · rw [asked, Ledger.call_of_silent rfl]
        exact applied.writes
  | takeSnapshot => exact ⟨applied.cluster, applied.writes, applied.tasks⟩

theorem Applied.tell (applied : d.Applied settings) (s : Session) (statement : Statement) :
    (d.tell s statement).Applied settings := by
  have asked : (d.tell s statement).ledger settings =
      (d.ledger settings).after (executeCalls d.shared.store s statement) := Ledger.after_append _ d.calls _
  refine ⟨?_, ?_, applied.tasks⟩
  · rw [asked]
    have same : d.ledger settings = ⟨d.shared.store, (d.ledger settings).changes⟩ := by rw [← applied.cluster]
    rw [same]
    exact Ledger.cluster_calls (.reaching statement)
  · rw [asked, writes_executeCalls]
    exact applied.writes

theorem applied_after (plain : settings.torn = false) (history : List Incident) :
    (after settings history).Applied settings := by
  refine List.foldlRecOn (motive := Applied settings) history undergo ?_ fun d applied incident _ => ?_
  · exact ⟨rfl, rfl, fun i r task found => by simp [fresh] at found⟩
  · cases incident with
    | event event => exact applied.step plain event
    | statement s statement => exact applied.tell s statement

end Drill

end Workload

end LedgerDrill
