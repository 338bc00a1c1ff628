import LedgerDrill.Proofs.Workload.Rounds

namespace LedgerDrill.Workload
open Cluster Outcome

/-! ## What is recorded -/

def gained (m : Meter) (key : Key) : Option Ending → Nat
  | none => 0
  | some ending =>
    if m.chosen key then m.gain (Label.ofText (Ending.message ending)) (Ending.isAlarm ending)
    else 0

theorem overall_record (m : Meter) (taken : List Snapshot) {r : Registry} {key : Key}
    (registered : r.contains key = true) (started now : Instant) (ending : Option Ending) :
    overall m.shown taken (record r key started now ending) =
      overall m.shown taken r + gained m key ending := by
  cases ending with
  | none => rfl
  | some ending => exact m.overall_finish taken registered started now _ _

theorem contains_record (r : Registry) (key other : Key) (started now : Instant)
    (ending : Option Ending) :
    (record r key started now ending).contains other = r.contains other := by
  cases ending with
  | none => rfl
  | some ending => exact Registry.contains_update _

variable {n draw node : Nat} {body body' : Body} {moves : List (List Write)}
variable {ending : Option Ending}

theorem gained_commits (ends : Ends n draw body moves ending body') (node : Nat) :
    gained (.commits .transfer) ⟨node, body'.kind⟩ ending = moves.length := by
  cases ends with
  | goesOn | read => rfl
  | moved =>
      have isCommit : (if Label.ofText commit = commit then 1 else 0) = 1 :=
        if_pos Label.ofText_commit
      simp only [gained, Ending.message, Meter.commits, isCommit]
      rfl
  | failed failure =>
      have noCommit : (if Label.ofText _ = commit then 1 else 0) = 0 := if_neg failure
      simp only [gained, Ending.message, Meter.commits, noCommit]
      exact ite_self 0

theorem gained_violations (other : Nat) (kind : LoopKind) (ending : Ending) :
    gained (.violations other) ⟨node, kind⟩ (some ending) =
      if node == other && Ending.isAlarm ending then 1 else 0 := by
  cases same : node == other <;> simp [gained, Meter.violations, same]

/-! ## What a loop has read -/

/-- The body of a loop that was launched with another, after what its successful iterations told. -/
inductive Follows : Body → List Bool → Body → Prop
  | transfer {accounts : Nat} {amount : Int} {readings : List Bool} :
      Follows (.transfer accounts amount) readings (.transfer accounts amount)
  | unread {watch : Watch} : Follows (.sumTotal watch) [] (.sumTotal watch)
  | read {watch : Watch} (k : Nat) :
      Follows (.sumTotal watch) ((0 != watch.lastSeen) :: List.replicate k false) (.sumTotal ⟨0⟩)

def reading (ending : Option Ending) : List Bool := (ending.bind Except.toOption).toList

theorem Follows.kind {launched : Body} {readings : List Bool}
    (follows : Follows launched readings body) : body.kind = launched.kind := by
  cases follows <;> rfl

theorem Follows.step {launched : Body} {readings : List Bool}
    (follows : Follows launched readings body) (ends : Ends n draw body moves ending body') :
    Follows launched (readings ++ reading ending) body' := by
  cases ends with
  | goesOn | failed => rw [reading]; exact (List.append_nil readings).symm ▸ follows
  | moved => cases follows; exact .transfer
  | read =>
      cases follows with
      | unread => exact .read 0
      | read k =>
          have longer : List.replicate k false ++ [false] = List.replicate (k + 1) false :=
            List.replicate_succ'.symm
          rw [List.cons_append]
          exact longer ▸ .read (k + 1)

/-! ## The drill -/

def Task.Sound (n draw node : Nat) (body : Body) : Task Session Waiting → Prop
  | .running i _ _ => i.loop.node = node ∧ i.loop.body = body ∧ i.point.Sound n draw body
  | .resting loop _ _ => loop.node = node ∧ loop.body = body
  | .iteration _ | .statement .. => False

structure Runner.Sound (n : Nat) (registry : Registry) (readings : List Bool) (r : Runner) :
    Prop where
  registered : registry.contains ⟨r.node, r.body.kind⟩ = true
  body : ∃ body, Follows r.body readings body ∧
    ∀ task, r.task = some task → task.Sound n r.draw r.node body

namespace Drill

/-- The changes are those of the transfers that were counted, and the loops have read what they told. -/
structure Sound (settings : Cluster.Settings) (n : Nat) (d : Drill) : Prop where
  ledger : d.ledger settings = ⟨d.shared.store, .create n :: d.moves.map .write⟩
  moves : ∀ writes ∈ d.moves, IsMove n writes
  runners : ∀ (i : Nat) (r : Runner), d.runners[i]? = some r →
    r.Sound n d.shared.registry (d.readings i)
  unused : ∀ i, d.runners.length ≤ i → d.readings i = []
  commits : d.commits = d.moves.length
  violations : ∀ node, d.violations node = d.alarms node

variable {settings : Cluster.Settings} {d : Drill}

theorem Sound.sane (sound : d.Sound settings n) (plain : settings.torn = false) :
    Sane n ⟨d.shared.store, .create n :: d.moves.map .write⟩ := by
  refine ⟨?_, ?_, Accounts.balanced_moves sound.moves⟩
  · rw [← sound.ledger]
    exact (congrArg (·.torn) (Ledger.settings_run settings d.calls)).trans plain
  · rw [← sound.ledger]
    exact Ledger.faithful_run settings d.calls

/-! ### The step of a loop -/

theorem flatMap_writes (ends : Ends n draw body moves ending body') (calls : List Call)
    (i node : Nat) :
    ((Stride.ofEnding draw calls body ending).rounds i node).flatMap Round.writes = moves := by
  cases ends with
  | goesOn | moved | read => rfl
  | @failed body e failure => cases body <;> rfl

theorem areMoves (ends : Ends n draw body moves ending body') : ∀ writes ∈ moves, IsMove n writes := by
  intro writes member
  cases ends with
  | moved inside => exact ⟨_, _, inside, List.mem_singleton.mp member⟩
  | goesOn | read | failed => exact absurd member List.not_mem_nil

def took (d : Drill) (i : Nat) (runner : Runner) (draw : Nat) (calls : List Call) (body : Body)
    (registry : Registry) (started now : Instant) (turn : LoopTurn Cluster Session Waiting)
    (task : Option (Task Session Waiting)) : Drill :=
  { d with
    shared := ⟨turn.store, record registry turn.loop.key started now turn.ending⟩
    runners := d.runners.set i { runner with draw, task }
    calls := d.calls ++ calls
    rounds := d.rounds ++ (Stride.ofEnding draw calls body turn.ending).rounds i runner.node }

section

variable {i : Nat} {runner : Runner} {loop : Loop Session} {calls : List Call} {registry : Registry}
variable {turn : LoopTurn Cluster Session Waiting} {task : Option (Task Session Waiting)}
variable {started now : Instant}

theorem ledger_took : (d.took i runner draw calls body registry started now turn task).ledger settings =
    (d.ledger settings).after calls :=
  Ledger.after_append _ d.calls calls

theorem moves_took (ends : Ends n draw body moves turn.ending body') :
    (d.took i runner draw calls body registry started now turn task).moves = d.moves ++ moves := by
  simp only [Drill.moves, took, List.flatMap_append, flatMap_writes ends]

theorem readings_took (j : Nat) :
    (d.took i runner draw calls body registry started now turn task).readings j =
      d.readings j ++ if i = j then reading turn.ending else [] := by
  simp only [readings, took, List.filterMap_append, reading]
  congr 1
  cases turn.ending with
  | none => split <;> rfl
  | some ending =>
      by_cases same : i = j <;> cases ending <;>
        simp [same, Stride.rounds, Stride.ofEnding, Except.toOption]

theorem alarms_took (other : Nat) (kind : LoopKind) :
    (d.took i runner draw calls body registry started now turn task).alarms other =
      d.alarms other + gained (.violations other) ⟨runner.node, kind⟩ turn.ending := by
  simp only [alarms, took, List.countP_append]
  cases turn.ending with
  | none => rfl
  | some ending =>
      rw [gained_violations]
      exact congrArg (_ + ·) List.countP_singleton

theorem Sound.took (sound : d.Sound settings n) (found : d.runners[i]? = some runner)
    (follows : Follows runner.body (d.readings i) loop.body) (sameNode : loop.node = runner.node)
    (step : LoopStep n draw ⟨d.shared.store, .create n :: d.moves.map .write⟩ calls loop turn)
    (sameKeys : ∀ key, registry.contains key = d.shared.registry.contains key)
    (sameCounts : ∀ m : Meter, overall m.shown d.snapshots registry =
      overall m.shown d.snapshots d.shared.registry)
    (tasks : ∀ next, task = some next → next.Sound n draw runner.node turn.loop.body) :
    (d.took i runner draw calls loop.body registry started now turn task).Sound settings n := by
  obtain ⟨moves, made, ends⟩ := step.ends
  have follows' := follows.step ends
  -- The ending is recorded under the key of the loop that was launched: a body never changes its kind.
  have key : turn.loop.key = ⟨runner.node, turn.loop.body.kind⟩ := by
    rw [Loop.key, step.node, sameNode]
    rfl
  have registered : registry.contains turn.loop.key = true := by
    rw [key, follows'.kind, sameKeys]
    exact (sound.runners i runner found).registered
  have counts (m : Meter) : overall m.shown d.snapshots
      (record registry turn.loop.key started now turn.ending) =
        overall m.shown d.snapshots d.shared.registry + gained m turn.loop.key turn.ending := by
    rw [overall_record m _ registered, sameCounts]
  have bound := (List.getElem?_eq_some_iff.mp found).1
  refine ⟨?_, ?_, ?_, ?_, ?_, ?_⟩
  · rw [ledger_took, sound.ledger, made, moves_took ends, List.map_append, List.cons_append]
    rfl
  · intro writes member
    rw [moves_took ends] at member
    rcases List.mem_append.mp member with member | member
    · exact sound.moves writes member
    · exact areMoves ends writes member
  · intro j r located
    have known (key : Key) : (d.took i runner draw calls loop.body registry started now turn
        task).shared.registry.contains key = d.shared.registry.contains key :=
      (contains_record _ _ _ _ _ _).trans (sameKeys key)
    rw [readings_took]
    by_cases same : i = j
    · subst same
      simp only [Drill.took, List.getElem?_set_self bound, Option.some.injEq] at located
      subst located
      rw [if_pos rfl]
      exact ⟨(known _).trans (sound.runners i runner found).registered, _, follows', tasks⟩
    · simp only [Drill.took, List.getElem?_set_ne same] at located
      rw [if_neg same, List.append_nil]
      have before := sound.runners j r located
      exact ⟨(known _).trans before.registered, before.body⟩
  · intro j outside
    simp only [Drill.took, List.length_set] at outside
    rw [readings_took, if_neg (by omega), List.append_nil]
    exact sound.unused j outside
  · rw [moves_took ends, List.length_append, ← sound.commits, ← gained_commits ends runner.node, ← key]
    exact counts (.commits .transfer)
  · intro other
    rw [alarms_took other turn.loop.body.kind, ← sound.violations, ← key]
    exact counts (.violations other)

end

theorem sound_ofRun {turn : LoopTurn Cluster Session Waiting} {loop : Loop Session} {l : Ledger}
    {calls : List Call} (step : LoopStep n draw l calls loop turn) (sameNode : loop.node = node)
    (flag : Bool) (completed : Nat) (started : Instant) (next : Task Session Waiting)
    (same : (Course.ofRun flag completed started turn.loop turn.next).task? = some next) :
    next.Sound n draw node turn.loop.body := by
  have sameNode' := step.node.trans sameNode
  cases h : turn.next with
  | done =>
      rw [h] at same
      cases same
      exact ⟨sameNode', rfl⟩
  | waiting wait point =>
      rw [h] at same
      cases same
      exact ⟨sameNode', rfl, step.next wait point h⟩

theorem Sound.retask (sound : d.Sound settings n) (i : Nat)
    {f : Task Session Waiting → Option (Task Session Waiting)}
    (keeps : ∀ (task next : Task Session Waiting) (draw node : Nat) (body : Body),
      f task = some next → task.Sound n draw node body → next.Sound n draw node body) :
    (d.retask i f).Sound settings n := by
  unfold Drill.retask
  split
  · next runner found =>
      have bound := (List.getElem?_eq_some_iff.mp found).1
      refine ⟨sound.ledger, sound.moves, ?_, ?_, sound.commits, sound.violations⟩
      · intro j r located
        by_cases same : i = j
        · subst same
          simp only [List.getElem?_set_self bound, Option.some.injEq] at located
          subst located
          obtain ⟨registered, body, follows, tasks⟩ := sound.runners i runner found
          refine ⟨registered, body, follows, ?_⟩
          intro next chosen
          obtain ⟨task, hasTask, made⟩ := Option.bind_eq_some_iff.mp chosen
          exact keeps task next _ _ _ made (tasks task hasTask)
        · simp only [List.getElem?_set_ne same] at located
          exact sound.runners j r located
      · intro j outside
        exact sound.unused j (by simpa using outside)
  · exact sound

theorem Sound.advance (sound : d.Sound settings n) (plain : settings.torn = false) {i : Nat}
    {runner : Runner} (found : d.runners[i]? = some runner) {task : Task Session Waiting}
    (hasTask : runner.task = some task) (expired : Bool) (random : Nat) (now : Instant) :
    (d.advance i runner task expired random now).Sound settings n := by
  obtain ⟨registered, body, follows, tasks⟩ := sound.runners i runner found
  have known := tasks task hasTask
  cases task with
  | statement | iteration => contradiction
  | running iteration flag completed =>
      obtain ⟨sameNode, rfl, point⟩ := known
      have step := loopStep_resume (sound.sane plain) iteration.loop expired random point
      change (d.took i runner _ _ _ _ iteration.started now _ _).Sound settings n
      exact sound.took found follows sameNode step (fun _ => rfl) (fun _ => rfl)
        (sound_ofRun step sameNode flag completed iteration.started)
  | resting loop flag completed =>
      obtain ⟨sameNode, rfl⟩ := known
      cases flag with
      | true =>
          have step : LoopStep n random _ (loop.calls d.shared.store) loop _ :=
            loopStep_start loop random d.shared.store (.create n :: d.moves.map .write)
          have isRegistered : d.shared.registry.contains loop.key = true := by
            rw [Loop.key, Loop.kind, sameNode, follows.kind]
            exact registered
          change (d.took i runner _ _ _ (d.shared.registry.update loop.key (·.start now)) now now _
            _).Sound settings n
          exact sound.took found follows sameNode step (fun _ => Registry.contains_update _)
            (fun m => m.overall_start d.snapshots isRegistered now)
            (sound_ofRun step sameNode true completed now)
      | false =>
          rw [Drill.advance_lowered found]
          exact sound.retask i fun _ _ _ _ _ same => (by cases same)

/-! ### Other events -/

theorem Sound.launch (sound : d.Sound settings n) (node : Nat) (body : Body) (loopSettings : Settings) :
    (d.step (.launch node body loopSettings)).Sound settings n := by
  have counts (m : Meter) : overall m.shown d.snapshots
      (d.shared.registry.register ⟨node, body.kind⟩) =
        overall m.shown d.snapshots d.shared.registry := m.overall_register _ _ _
  refine ⟨sound.ledger, sound.moves, ?_, ?_, ?_, ?_⟩
  · intro i r located
    simp only [Drill.step, List.getElem?_append] at located
    split at located
    · have before := sound.runners i r located
      refine ⟨Registry.contains_register.trans ?_, before.body⟩
      rw [before.registered, Bool.or_true]
    · next outside =>
        have unread : (d.step (.launch node body loopSettings)).readings i = [] :=
          sound.unused i (by omega)
        obtain rfl := List.mem_singleton.mp (List.mem_of_getElem? located)
        refine ⟨Registry.contains_register.trans ?_, body, ?_, ?_⟩
        · exact (Bool.or_eq_true _ _).mpr (Or.inl (beq_self_eq_true _))
        · rw [unread]
          cases body with
          | transfer accounts amount => exact .transfer
          | sumTotal watch => exact .unread
        · rintro _ ⟨⟩
          exact ⟨rfl, rfl⟩
  · intro i outside
    simp only [Drill.step, List.length_append] at outside
    exact sound.unused i (by omega)
  · exact (counts (.commits .transfer)).trans sound.commits
  · intro other
    exact (counts (.violations other)).trans (sound.violations other)

theorem Sound.step (sound : d.Sound settings n) (plain : settings.torn = false) (event : Event) :
    (d.step event).Sound settings n := by
  cases event with
  | launch node body loopSettings => exact sound.launch node body loopSettings
  | wake i expired random now =>
      simp only [Drill.step]
      split
      · next runner found =>
          split
          · next task hasTask => exact sound.advance plain found hasTask expired random now
          · exact sound
      · exact sound
  | setFlag i value =>
      refine sound.retask i ?_
      rintro task next draw node body ⟨⟩ known
      cases task <;> exact known
  | abort i => exact sound.retask i fun _ _ _ _ _ same => (by cases same)
  | fault fault =>
      refine ⟨?_, sound.moves, sound.runners, sound.unused, sound.commits, sound.violations⟩
      have asked : (d.step (.fault fault)).ledger settings = (d.ledger settings).call (.fault fault) :=
        Ledger.after_append _ d.calls [.fault fault]
      rw [asked, sound.ledger]
      exact Ledger.call_of_silent rfl
  | takeSnapshot now =>
      have counts (m : Meter) := m.overall_takeSnapshot d.snapshots d.shared.registry now
      refine ⟨sound.ledger, sound.moves, ?_, sound.unused, ?_, ?_⟩
      · intro i r located
        have before := sound.runners i r located
        exact ⟨Registry.contains_clear.trans before.registered, before.body⟩
      · exact (counts (.commits .transfer)).trans sound.commits
      · intro other
        exact (counts (.violations other)).trans (sound.violations other)

theorem sound_run (plain : settings.torn = false) {calls : List Call}
    (seeded : (Ledger.run settings calls).changes = [.create n]) (events : List Event) :
    (run settings calls events).Sound settings n := by
  refine List.foldlRecOn (motive := Sound settings n) events Drill.step ?_ fun _ sound event _ =>
    sound.step plain event
  refine ⟨?_, fun writes member => absurd member List.not_mem_nil, fun i r found => by simp at found,
    fun _ _ => rfl, rfl, fun _ => rfl⟩
  exact congrArg (Ledger.mk _) seeded

end Drill

end LedgerDrill.Workload
