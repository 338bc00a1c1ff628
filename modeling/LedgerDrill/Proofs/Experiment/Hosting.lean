import LedgerDrill.Proofs.Experiment.Quiet
import LedgerDrill.Proofs.Workload.Histories

/-!
Clients as drills. The loops of a worker are those of a drill whose events happen in the order of the clock,
and a client makes statements of its own in between. So whatever a client has done, as long as it has not
aborted a loop, every statement under way is one of its loops or its own.
-/

namespace LedgerDrill
open Cluster (Session Waiting)

namespace Workload
open Cluster Outcome

/-! ## Drills without aborts -/

namespace Drill

def Unaborted (settings : Cluster.Settings) (d : Drill) : Prop :=
  ∃ history, (∀ i, .event (.abort i) ∉ history) ∧ d = after settings history

variable {settings : Cluster.Settings} {d : Drill}

theorem unaborted_fresh (settings : Cluster.Settings) : (fresh settings).Unaborted settings :=
  ⟨[], fun _ => List.not_mem_nil, rfl⟩

theorem Unaborted.undergo (unaborted : d.Unaborted settings) (incident : Incident)
    (spares : ∀ i, incident ≠ .event (.abort i)) : (d.undergo incident).Unaborted settings := by
  obtain ⟨history, none, rfl⟩ := unaborted
  refine ⟨history ++ [incident], fun i member => ?_, by simp [after]⟩
  rcases List.mem_append.mp member with before | last
  · exact none i before
  · exact spares i (List.mem_singleton.mp last).symm

theorem Unaborted.step (unaborted : d.Unaborted settings) (event : Event) (spares : ∀ i, event ≠ .abort i) :
    (d.step event).Unaborted settings := by
  refine unaborted.undergo (.event event) ?_
  rintro i ⟨⟩
  exact spares i rfl

theorem Unaborted.tell (unaborted : d.Unaborted settings) (s : Session) (statement : Statement) :
    (d.tell s statement).Unaborted settings := by
  refine unaborted.undergo (.statement s statement) ?_
  rintro i ⟨⟩

theorem Unaborted.owns (unaborted : d.Unaborted settings) : Owns d.shared.store fun id =>
    ∃ task ∈ d.runners.filterMap (·.task), task.prepared? = some id := by
  obtain ⟨history, none, rfl⟩ := unaborted
  obtain ⟨t, carried⟩ := carried_after settings history
  refine carried.owns.imp ?_
  rintro id ⟨i, runner, task, found, left, prepared⟩
  rw [lost_eq_nil none, List.lookup_nil, Option.or_none] at left
  exact ⟨task, List.mem_filterMap.mpr ⟨runner, List.mem_of_getElem? found, left⟩, prepared⟩

theorem Unaborted.faithful (unaborted : d.Unaborted settings) :
    ∃ changes, Ledger.Faithful ⟨d.shared.store, changes⟩ := by
  obtain ⟨history, -, rfl⟩ := unaborted
  obtain ⟨t, carried⟩ := carried_after settings history
  exact carried.cluster ▸ carried.lawful.faithful

theorem Unaborted.lowerTo (unaborted : d.Unaborted settings) (k : Nat) : ∃ d' : Drill, d'.Unaborted settings ∧
    d'.shared = d.shared ∧ ∀ j, d'.runners[j]? = d.runners[j]?.map fun r =>
      if j < k then { r with task := r.task.map (Task.setFlag false) } else r := by
  induction k with
  | zero => exact ⟨d, unaborted, rfl, fun j => by simp⟩
  | succ k ih =>
      obtain ⟨d', unaborted', shared, runners⟩ := ih
      refine ⟨_, unaborted'.step (.setFlag k false) (by rintro _ ⟨⟩), ?_, fun j => ?_⟩
      · simp only [Drill.step, retask]
        split <;> exact shared
      · simp only [Drill.step, getElem?_retask, runners, Option.map_map]
        congr 1
        funext r
        by_cases same : k = j
        · subst same
          obtain ⟨node, body, draw, task⟩ := r
          cases task <;> simp
        · have apart : j < k + 1 ↔ j < k := by omega
          simp [same, apart]

theorem Unaborted.lower (unaborted : d.Unaborted settings) : ∃ d' : Drill, d'.Unaborted settings ∧
    d'.shared = d.shared ∧
    d'.runners.filterMap (·.task) = (d.runners.filterMap (·.task)).map (Task.setFlag false) := by
  obtain ⟨d', unaborted', shared, runners⟩ := unaborted.lowerTo d.runners.length
  have lowered : d'.runners = d.runners.map fun r => { r with task := r.task.map (Task.setFlag false) } := by
    refine List.ext_getElem? fun j => ?_
    rw [runners, List.getElem?_map]
    cases found : d.runners[j]? with
    | none => rfl
    | some r => simp [(List.getElem?_eq_some_iff.mp found).1]
  refine ⟨d', unaborted', shared, ?_⟩
  rw [lowered, List.filterMap_map, List.map_filterMap]
  rfl

end Drill

theorem filterMap_set {α β : Type} {l : List α} {i : Nat} {a : α} {b : β} {f : α → Option β}
    (found : l[i]? = some a) (image : f a = some b) :
    ∃ rest, (l.filterMap f).Perm (b :: rest) ∧
      ∀ a', ((l.set i a').filterMap f).Perm ((f a').toList ++ rest) := by
  induction l generalizing i with
  | nil => simp at found
  | cons head tail ih =>
      cases i with
      | zero =>
          cases found
          refine ⟨tail.filterMap f, by simp [image], fun a' => ?_⟩
          cases other : f a' <;> simp [other]
      | succ i =>
          obtain ⟨rest, before, after⟩ := ih found
          cases first : f head with
          | none => exact ⟨rest, by simpa [first] using before, fun a' => by simpa [first] using after a'⟩
          | some c =>
              refine ⟨c :: rest, ?_, fun a' => ?_⟩
              · simpa [first] using (before.cons c).trans (.swap b c rest)
              · simpa [first] using ((after a').cons c).trans List.perm_middle.symm

end Workload

/-! ## The tasks in flight -/

namespace Timeline
open Workload Cluster

section

variable {ι : Type} (t : Timeline ι Cluster Session Waiting) (name : ι)

theorem tasks_place (course : Course Session Waiting) :
    (t.place name course).flights.map (·.2.task) = t.flights.map (·.2.task) ++ course.task?.toList := by
  cases course with
  | landed => exact (List.append_nil _).symm
  | waiting => exact List.map_append

end

theorem resume_congr {shared shared' : Shared Cluster} (same : shared.store = shared'.store)
    (task : Task Session Waiting) (expired : Bool) (random : Nat) (now : Outcome.Instant) :
    (shared.resume task expired random now).1.store = (shared'.resume task expired random now).1.store ∧
    (shared.resume task expired random now).2 = (shared'.resume task expired random now).2 := by
  obtain ⟨store, registry⟩ := shared
  obtain ⟨store', registry'⟩ := shared'
  cases same
  cases task with
  | statement | iteration | running => exact ⟨rfl, rfl⟩
  | resting loop flag completed => cases flag <;> exact ⟨rfl, rfl⟩

def IsOwn : Task Session Waiting → Prop
  | .statement _ (.reaching statement) => statement.isOwn = true
  | _ => False

variable {ι : Type} {t : Timeline ι Cluster Session Waiting} {d : Workload.Drill} {settings : Cluster.Settings}

structure Hosts (t : Timeline ι Cluster Session Waiting) (d : Workload.Drill) : Prop where
  store : t.shared.store = d.shared.store
  tasks : ∃ own : List (Task Session Waiting), (∀ task ∈ own, IsOwn task) ∧
    (t.flights.map (·.2.task)).Perm (d.runners.filterMap (·.task) ++ own)

/-- The timeline hosts some drill on a cluster that was new once, without an abort. -/
def Lodges (settings : Cluster.Settings) (t : Timeline ι Cluster Session Waiting) : Prop :=
  ∃ d : Workload.Drill, d.Unaborted settings ∧ t.Hosts d

theorem lodges_new (new : t.shared.store = .new settings) (none : t.flights = []) : t.Lodges settings := by
  refine ⟨_, Drill.unaborted_fresh settings, new, [], fun task member => absurd member List.not_mem_nil, ?_⟩
  rw [none]
  exact .refl _

theorem Lodges.owns (lodges : t.Lodges settings) : Owns t.shared.store fun id =>
    ∃ flight ∈ t.flights, flight.2.task.prepared? = some id := by
  obtain ⟨d, unaborted, store, own, -, tasks⟩ := lodges
  rw [store]
  refine unaborted.owns.imp ?_
  rintro id ⟨task, member, prepared⟩
  obtain ⟨flight, flown, rfl⟩ := List.mem_map.mp (tasks.mem_iff.mpr (List.mem_append_left own member))
  exact ⟨flight, flown, prepared⟩

theorem Lodges.faithful (lodges : t.Lodges settings) : ∃ changes, Ledger.Faithful ⟨t.shared.store, changes⟩ := by
  obtain ⟨d, unaborted, store, -⟩ := lodges
  exact store ▸ unaborted.faithful

theorem Lodges.congr (lodges : t.Lodges settings) {t' : Timeline ι Cluster Session Waiting}
    (store : t'.shared.store = t.shared.store) (flights : t'.flights = t.flights) : t'.Lodges settings := by
  obtain ⟨d, unaborted, hosts⟩ := lodges
  exact ⟨d, unaborted, store.trans hosts.store, flights ▸ hosts.tasks⟩

theorem lodges_wakeLoop {name : ι} {flight : Flight Session Waiting} {others : List (ι × Flight Session Waiting)}
    {own : List (Task Session Waiting)} (unaborted : d.Unaborted settings)
    (store : t.shared.store = d.shared.store) (areOwn : ∀ task ∈ own, IsOwn task)
    (divided : (flight.task :: others.map (·.2.task)).Perm (d.runners.filterMap (·.task) ++ own))
    (looped : flight.task ∈ d.runners.filterMap (·.task)) (expired : Bool) :
    (t.wake name { flight with expired } others).Lodges settings := by
  obtain ⟨sameStore, sameCourse⟩ := resume_congr store flight.task expired t.dice.roll.1 stopwatch
  obtain ⟨runner, inside, hasTask⟩ := List.mem_filterMap.mp looped
  obtain ⟨i, located⟩ := List.mem_iff_getElem?.mp inside
  obtain ⟨rest, before, after⟩ := filterMap_set located hasTask
  have left : (others.map (·.2.task)).Perm (rest ++ own) :=
    (divided.trans (before.append_right own)).cons_inv
  have woke : d.step (.wake i expired t.dice.roll.1 stopwatch) =
      d.advance i runner flight.task expired t.dice.roll.1 stopwatch := by
    simp only [Drill.step, located, hasTask]
  rw [wake_eq]
  refine ⟨_, unaborted.step (.wake i expired t.dice.roll.1 stopwatch) (by rintro _ ⟨⟩), ?_, own, areOwn, ?_⟩
  · rw [woke, shared_place]
    exact sameStore
  · rw [woke, tasks_place, sameCourse]
    have next := (after { runner with
      draw := (flight.task.stride d.shared.store runner.draw expired t.dice.roll.1).draw
      task := (d.shared.resume flight.task expired t.dice.roll.1 stopwatch).2.task? }).append_right own
    refine .trans ?_ next.symm
    rw [List.append_assoc]
    exact List.perm_append_comm.trans (left.append_left _)

theorem lodges_wakeOwn {name : ι} {flight : Flight Session Waiting} {others : List (ι × Flight Session Waiting)}
    {own : List (Task Session Waiting)} (unaborted : d.Unaborted settings)
    (store : t.shared.store = d.shared.store) (areOwn : ∀ task ∈ own, IsOwn task)
    (divided : (flight.task :: others.map (·.2.task)).Perm (d.runners.filterMap (·.task) ++ own))
    (told : flight.task ∈ own) (expired : Bool) :
    (t.wake name { flight with expired } others).Lodges settings := by
  obtain ⟨sameStore, sameCourse⟩ := resume_congr store flight.task expired t.dice.roll.1 stopwatch
  have mine := areOwn _ told
  rw [wake_eq]
  generalize flight.task = task at sameStore sameCourse divided told mine ⊢
  cases task with
  | iteration | running | resting => cases mine
  | statement s w =>
      cases w with
      | preparing | applying | tearing => cases mine
      | reaching statement =>
          -- Such a statement waits only on its way to the node: when it arrives it is answered at once.
          obtain ⟨c', s', answer, executed⟩ := execute_own mine d.shared.store s
          have landed : (d.shared.resume (.statement s (.reaching statement)) expired t.dice.roll.1 stopwatch).2 =
              .landed (.statement s' answer) := by
            change Course.ofStatement (execute d.shared.store s statement) = _
            rw [executed]
            rfl
          obtain ⟨front, back, rfl⟩ := List.append_of_mem told
          have middle : (d.runners.filterMap (·.task) ++ (front ++ .statement s (.reaching statement) :: back)).Perm
              (.statement s (.reaching statement) :: (d.runners.filterMap (·.task) ++ (front ++ back))) := by
            rw [← List.append_assoc, ← List.append_assoc]
            exact List.perm_middle
          refine ⟨_, unaborted.tell s statement, ?_, front ++ back, fun task member => areOwn task ?_, ?_⟩
          · rw [shared_place]
            exact sameStore
          · exact List.mem_append.mpr ((List.mem_append.mp member).imp_right (List.mem_cons_of_mem _))
          · rw [tasks_place, sameCourse, landed]
            exact (List.append_nil _).symm ▸ (divided.trans middle).cons_inv

theorem Lodges.wake (lodges : t.Lodges settings) {name : ι} {flight : Flight Session Waiting}
    {others : List (ι × Flight Session Waiting)} (found : t.flights.Perm ((name, flight) :: others))
    (expired : Bool) : (t.wake name { flight with expired } others).Lodges settings := by
  obtain ⟨d, unaborted, store, own, areOwn, tasks⟩ := lodges
  have divided := (found.map (·.2.task)).symm.trans tasks
  rw [List.map_cons] at divided
  have member : flight.task ∈ d.runners.filterMap (·.task) ++ own := divided.subset List.mem_cons_self
  rcases List.mem_append.mp member with looped | told
  · exact lodges_wakeLoop unaborted store areOwn divided looped expired
  · exact lodges_wakeOwn unaborted store areOwn divided told expired

theorem stable_lodges (settings : Cluster.Settings) :
    Stable (Lodges settings : Timeline ι Cluster Session Waiting → Prop) where
  wake {_ _ flight _} found lodges := lodges.wake found flight.expired
  clock _ _ lodges := lodges.congr rfl rfl

theorem Lodges.tell (lodges : t.Lodges settings) (s : Session) (statement : Statement) :
    Lodges settings { t with shared.store := (execute t.shared.store s statement).store } := by
  obtain ⟨d, unaborted, store, tasks⟩ := lodges
  exact ⟨_, unaborted.tell s statement, by rw [store]; rfl, tasks⟩

theorem Lodges.fault (lodges : t.Lodges settings) (fault : Fault) :
    Lodges settings { t with shared.store := (Cluster.inject fault t.shared.store).1 } := by
  obtain ⟨d, unaborted, store, tasks⟩ := lodges
  exact ⟨_, unaborted.step (.fault fault) (by rintro _ ⟨⟩), by rw [store]; rfl, tasks⟩

theorem Lodges.join (lodges : t.Lodges settings) (name : ι) (flight : Flight Session Waiting)
    (own : IsOwn flight.task) : Lodges settings { t with flights := t.flights ++ [(name, flight)] } := by
  obtain ⟨d, unaborted, store, mine, areOwn, tasks⟩ := lodges
  refine ⟨d, unaborted, store, mine ++ [flight.task], fun task member => ?_, ?_⟩
  · rcases List.mem_append.mp member with before | added
    · exact areOwn task before
    · exact List.mem_singleton.mp added ▸ own
  · rw [List.map_append, ← List.append_assoc]
    exact tasks.append_right [flight.task]

theorem Lodges.launchStatement (lodges : t.Lodges settings) (name : ι) {statement : Statement}
    (own : statement.isOwn = true) (s : Session) : (t.launchStatement name statement s).Lodges settings := by
  have known := starts statement t.shared.store s
  simp only [Timeline.launchStatement, Shared.launchStatement]
  change Lodges settings (place { t with shared := { t.shared with store := (startStatement statement _ s).store } }
    name (.ofStatement (startStatement statement t.shared.store s)))
  generalize startStatement statement t.shared.store s = turn at known ⊢
  cases known with
  | closed | refused => exact lodges.congr rfl rfl
  | idle | gaveUp | commits => cases own
  | sends => exact (lodges.join name ⟨_, _, .statement s (.reaching statement)⟩ own).congr rfl rfl

theorem setFlag_setFlag (task : Task Session Waiting) (value : Bool) :
    (task.setFlag value).setFlag value = task.setFlag value := by
  cases task <;> rfl

theorem tasks_lower [DecidableEq ι] (names : List ι) (t : Timeline ι Cluster Session Waiting) :
    (names.foldl (fun t name => t.setFlag name false) t).shared = t.shared ∧
    (names.foldl (fun t name => t.setFlag name false) t).flights = t.flights.map fun flight =>
      if flight.1 ∈ names then (flight.1, { flight.2 with task := flight.2.task.setFlag false }) else flight := by
  induction names generalizing t with
  | nil => simp
  | cons name names ih =>
      obtain ⟨shared, flights⟩ := ih (t.setFlag name false)
      refine ⟨shared, ?_⟩
      rw [List.foldl_cons, flights, Timeline.setFlag, List.map_map]
      refine List.map_congr_left fun flight member => ?_
      by_cases same : flight.1 = name
      · simp [same, setFlag_setFlag]
      · simp [same]

theorem Lodges.lower [DecidableEq ι] (lodges : t.Lodges settings) :
    ((t.flights.map (·.1)).foldl (fun t name => t.setFlag name false) t).Lodges settings := by
  obtain ⟨d, unaborted, store, own, areOwn, tasks⟩ := lodges
  obtain ⟨d', unaborted', sharedD, lowered⟩ := unaborted.lower
  obtain ⟨shared, flights⟩ := tasks_lower (t.flights.map (·.1)) t
  refine ⟨d', unaborted', by rw [shared, sharedD, store], own, areOwn, ?_⟩
  have all : (t.flights.map fun flight => if flight.1 ∈ t.flights.map (·.1) then
      (flight.1, { flight.2 with task := flight.2.task.setFlag false }) else flight).map (·.2.task) =
        (t.flights.map (·.2.task)).map (Task.setFlag false) := by
    rw [List.map_map, List.map_map]
    refine List.map_congr_left fun flight member => ?_
    simp [List.mem_map_of_mem member]
  have untouched : ∀ task ∈ own, task.setFlag false = id task := by
    intro task member
    have mine := areOwn task member
    cases task with
    | statement => rfl
    | iteration | running | resting => cases mine
  have same : own.map (Task.setFlag false) = own := (List.map_congr_left untouched).trans (List.map_id own)
  rw [flights, all, lowered]
  have mapped := tasks.map (Task.setFlag false)
  rwa [List.map_append, same] at mapped

theorem Lodges.launchRun (lodges : t.Lodges settings) (name : ι) (node : Nat) (body : Body)
    (loopSettings : Workload.Settings) :
    let loop : Loop Session := { node, body, settings := loopSettings }
    (launchRun { t with shared := t.shared.register loop } name loop true).Lodges settings := by
  intro loop
  obtain ⟨d, unaborted, store, own, areOwn, tasks⟩ := lodges
  let flight : Flight Session Waiting := ⟨0, false, .resting loop true 0⟩
  let rested : Timeline ι Cluster Session Waiting :=
    { t with shared := t.shared.register loop, flights := t.flights ++ [(name, flight)] }
  have lodged : rested.Lodges settings := by
    refine ⟨_, unaborted.step (.launch node body loopSettings) (by rintro _ ⟨⟩), store, own, areOwn, ?_⟩
    change (List.map _ (t.flights ++ [(name, flight)])).Perm (List.filterMap _ (d.runners ++ [_]) ++ own)
    rw [List.map_append, List.filterMap_append, List.append_assoc]
    refine (tasks.append_right [flight.task]).trans ?_
    rw [List.append_assoc]
    exact List.perm_append_comm.append_left _
  have first : (t.flights ++ [(name, flight)]).Perm ((name, flight) :: t.flights) := List.perm_append_comm
  -- The first iteration begins at once, as if the loop had rested and woken.
  have woken : (rested.wake name flight t.flights).Lodges settings := lodged.wake first false
  have now : max rested.now flight.wake = t.now := Nat.max_zero t.now
  rw [wake_eq, now] at woken
  exact woken

end Timeline

/-! ## Workers -/

theorem Worker.spawn_ok {σ κ π : Type} [Store σ κ π] {config : Config} {p p' : Workplace σ κ π} {w : Worker}
    (spawned : Worker.spawn config p = .ok (w, p')) (stays : Store.losesWorker p.shared.store = false) :
    w.isRunning = true ∧ p' = (loops σ config p.shared.store).foldl launch
      { p with shared.registry := {}, flights := [], landed := [] } := by
  unfold Worker.spawn at spawned
  cases checked : config.validate with
  | error fault =>
      rw [checked] at spawned
      cases spawned
  | ok =>
      rw [checked] at spawned
      simp only [stays] at spawned
      cases spawned
      exact ⟨rfl, rfl⟩

namespace Client
open Timeline

variable {p : Workplace Cluster Session Waiting} {settings : Cluster.Settings} {statement : Statement}

theorem lodges_ask (lodges : p.Lodges settings) (own : statement.isOwn = true) (node : Nat) :
    (ask p node statement).1.Lodges settings :=
  (stable_lodges settings).ask
    ((stable_lodges settings).connect (lodges.congr rfl rfl) fun lodges => lodges.congr rfl rfl)
    (fun session lodges => lodges.launchStatement none own session) fun lodges => lodges.congr rfl rfl

end Client

end LedgerDrill
