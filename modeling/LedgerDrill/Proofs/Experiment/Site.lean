import LedgerDrill.Experiment
import LedgerDrill.Proofs.Control.Windows
import LedgerDrill.Workload.Task

namespace LedgerDrill

/-! ## The operations of a step -/

namespace Workload
open Outcome

variable {σ κ π : Type}

def endingOps (key : Key) (started now : Instant) (ending : Option Ending) : List Op :=
  (ending.map fun ending => .record key (Label.ofText (Ending.message ending))
    (.ofNanos (now - started)) (ending matches .ok true)).toList

theorem mem_endingOps {key : Key} {started now : Instant} {ending : Option Ending} {op : Op}
    (member : op ∈ endingOps key started now ending) :
    ∃ e, ending = some e ∧ op = .record key (Label.ofText (Ending.message e)) (.ofNanos (now - started))
      (e matches .ok true) := by
  cases ending with
  | none => cases member
  | some e => exact ⟨e, rfl, List.mem_singleton.mp member⟩

def Task.ops [Store σ κ π] (store : σ) (expired : Bool) (random : Nat) (now : Instant) :
    Task κ π → List Op
  | .iteration i | .running i _ _ =>
    let turn : LoopTurn σ κ π := i.loop.resume i.point expired random store
    endingOps turn.loop.key i.started now turn.ending
  | .resting loop true _ =>
    let turn : LoopTurn σ κ π := loop.start random store
    .start loop.key now :: endingOps turn.loop.key now now turn.ending
  | .resting _ false _ | .statement .. => []

def Course.onward? : Course κ π → Option (Task κ π)
  | .landed _ => none
  | .waiting _ task => some task

theorem record_eq (r : Registry) (key : Key) (started now : Instant) (ending : Option Ending) :
    record r key started now ending = (endingOps key started now ending).foldl Registry.perform r := by
  cases ending <;> rfl

theorem registry_resume [Store σ κ π] (shared : Shared σ) (task : Task κ π) (expired : Bool)
    (random : Nat) (now : Instant) :
    (shared.resume task expired random now).1.registry =
      (task.ops shared.store expired random now).foldl Registry.perform shared.registry := by
  cases task with
  | statement => rfl
  | iteration i => exact record_eq ..
  | running i => exact record_eq ..
  | resting loop flag =>
      cases flag with
      | false => rfl
      | true => exact record_eq ..

end Workload

open Control Outcome Workload

theorem Control.Exchange.play_work (d : Exchange) (ops : List Op) :
    (d.play (ops.map .work)).registry = ops.foldl Registry.perform d.registry := by
  induction ops generalizing d with
  | nil => rfl
  | cons op ops ih =>
      have first : (d.step (.work op)).registry = d.registry.perform op := by
        simp only [Exchange.step]
        split
        · rfl
        · next refused =>
            rw [Registry.perform_of_not_allowed (Bool.not_eq_true _ ▸ refused)]
      exact (ih _).trans (by rw [first, List.foldl_cons])

/-! ## Happenings -/

structure Site (σ κ π : Type) where
  store : σ
  /-- The loops that were launched. Nothing is left of a loop after its end or its abort. -/
  tasks : List (Option (Task κ π)) := []
  exchange : Exchange := {}

/-- What happens without the controller. -/
inductive Happening (σ : Type)
  | launch (node : Nat) (body : Body) (settings : Settings)
  | wake (task : Nat) (expired : Bool) (random : Nat) (now : Instant)
  | setFlag (task : Nat) (value : Bool)
  | abort (task : Nat)
  | respond (now : Instant)
  | change (f : σ → σ)

namespace Site

variable {σ κ π : Type}

def shared (s : Site σ κ π) : Shared σ := ⟨s.store, s.exchange.registry⟩

def log (s : Site σ κ π) : List Note := s.exchange.log

def retask (s : Site σ κ π) (i : Nat) (f : Task κ π → Option (Task κ π)) : Site σ κ π :=
  { s with tasks := s.tasks.modify i (·.bind f) }

def All (P : Task κ π → Prop) (s : Site σ κ π) : Prop :=
  ∀ (i : Nat) (task : Task κ π), s.tasks[i]? = some (some task) → P task

section
variable {P : Task κ π → Prop} {s : Site σ κ π}

theorem All.retask (all : s.All P) (i : Nat) {f : Task κ π → Option (Task κ π)}
    (kept : ∀ task task', P task → f task = some task' → P task') : (s.retask i f).All P := by
  intro j task found
  rw [Site.retask, List.getElem?_modify] at found
  obtain ⟨old, before, same⟩ := Option.map_eq_some_iff.mp found
  split at same
  · obtain ⟨task', rfl, changed⟩ := Option.bind_eq_some_iff.mp same
    exact kept task' task (all j task' before) changed
  · exact all j task (same ▸ before)

theorem All.set (all : s.All P) (i : Nat) {task? : Option (Task κ π)} (next : ∀ task, task? = some task → P task)
    (j : Nat) (task : Task κ π) (found : (s.tasks.set i task?)[j]? = some (some task)) : P task := by
  rw [List.getElem?_set] at found
  split at found
  · split at found
    · exact next task (Option.some.inj found)
    · cases found
  · exact all j task found

theorem All.launch (all : s.All P) {new : Task κ π} (known : P new) (i : Nat) (task : Task κ π)
    (found : (s.tasks ++ [some new])[i]? = some (some task)) : P task := by
  rw [List.getElem?_append] at found
  split at found
  · exact all i task found
  · cases List.mem_singleton.mp (List.mem_of_getElem? found)
    exact known

end

variable [Store σ κ π]

def wake (s : Site σ κ π) (i : Nat) (task : Task κ π) (expired : Bool) (random : Nat)
    (now : Instant) : Site σ κ π :=
  let (shared, course) := s.shared.resume task expired random now
  let worked := s.exchange.play ((task.ops s.store expired random now).map .work)
  { store := shared.store
    tasks := s.tasks.set i course.onward?
    exchange := { worked with registry := shared.registry } }

def step (s : Site σ κ π) : Happening σ → Site σ κ π
  | .launch node body settings =>
    let loop : Loop κ := { node, body, settings }
    { s with
      tasks := s.tasks ++ [some (.resting loop true 0)]
      exchange := s.exchange.step (.work (.register loop.key)) }
  | .wake i expired random now =>
    match s.tasks[i]? with
    | some (some task) => s.wake i task expired random now
    | _ => s
  | .setFlag i value => s.retask i fun task => some (task.setFlag value)
  | .abort i => s.retask i fun _ => none
  | .respond now => { s with exchange := s.exchange.step (.respond now) }
  | .change f => { s with store := f s.store }

def play (s : Site σ κ π) (happenings : List (Happening σ)) : Site σ κ π := happenings.foldl step s

theorem exchange_wake (s : Site σ κ π) (i : Nat) (task : Task κ π) (expired : Bool) (random : Nat)
    (now : Instant) :
    (s.wake i task expired random now).exchange =
      s.exchange.play ((task.ops s.store expired random now).map .work) := by
  have same := (Exchange.play_work s.exchange (task.ops s.store expired random now)).trans
    (registry_resume s.shared task expired random now).symm
  simp only [wake, ← same]

theorem background_step (s : Site σ κ π) (h : Happening σ) :
    s.exchange.Background (s.step h).exchange := by
  cases h with
  | launch node body settings => exact ⟨[.work (.register _)], by simp [Event.isBackground], rfl⟩
  | respond now => exact ⟨[.respond now], by simp [Event.isBackground], rfl⟩
  | setFlag | abort | change => exact ⟨[], by simp, rfl⟩
  | wake i expired random now =>
      simp only [step]
      split
      · next task _ => exact ⟨_, by simp [Event.isBackground], exchange_wake s i task expired random now⟩
      · exact ⟨[], by simp, rfl⟩

theorem background_play (s : Site σ κ π) (happenings : List (Happening σ)) :
    s.exchange.Background (s.play happenings).exchange := by
  induction happenings generalizing s with
  | nil => exact Exchange.Background.refl s.exchange
  | cons h happenings ih => exact Exchange.Background.trans (background_step s h) (ih (s.step h))

end Site

/-! ## The controller -/

inductive Move (σ : Type)
  | happens (happening : Happening σ)
  | ask
  | receive

namespace Site

variable {σ κ π : Type} [Store σ κ π]

def move (s : Site σ κ π) : Move σ → Site σ κ π
  | .happens happening => s.step happening
  | .ask => { s with exchange := s.exchange.step .ask }
  | .receive => { s with exchange := s.exchange.step .receive }

def follow (s : Site σ κ π) (moves : List (Move σ)) : Site σ κ π := moves.foldl move s

/-- A site where some calls have been made, and none was cancelled. -/
def after (store : σ) (past : List (Move σ)) : Site σ κ π := Site.follow { store } past

theorem follow_append (s : Site σ κ π) (moves more : List (Move σ)) :
    s.follow (moves ++ more) = (s.follow moves).follow more :=
  List.foldl_append

theorem follow_happens (s : Site σ κ π) (happenings : List (Happening σ)) :
    s.follow (happenings.map .happens) = s.play happenings := by
  rw [follow, List.foldl_map]
  rfl

theorem orderly_follow (s : Site σ κ π) (orderly : s.exchange.Orderly) (moves : List (Move σ)) :
    (s.follow moves).exchange.Orderly := by
  refine List.foldlRecOn (motive := fun s => s.exchange.Orderly) moves move orderly ?_
  intro s orderly m _
  have asks : Event.isOrderly .ask = true := rfl
  have takes : Event.isOrderly .receive = true := rfl
  cases m with
  | happens happening => exact (background_step s happening).orderly orderly
  | ask => exact orderly.step asks
  | receive => exact orderly.step takes

end Site

/-- A site with what happens at it, one list for each time that the controller waits. -/
structure World (σ κ π : Type) where
  site : Site σ κ π
  schedule : List (List (Happening σ)) := []

namespace World

variable {σ κ π : Type} [Store σ κ π]

def rest (w : World σ κ π) : World σ κ π :=
  match w.schedule with
  | [] => w
  | batch :: later => ⟨w.site.play batch, later⟩

/-- Waits for a reply. A schedule that ends before is a call without an answer. -/
def awaitReply (site : Site σ κ π) : List (List (Happening σ)) → Except RunError Snapshot × World σ κ π
  | [] => (.error .noReply, ⟨site, []⟩)
  | batch :: later =>
    let site := site.play batch
    match site.exchange.channel.receive? with
    | some (result, _) => (result, ⟨site.move .receive, later⟩)
    | none => awaitReply site later

/-- Sends the command as soon as there is room for it, and waits for the reply. -/
def demand (site : Site σ κ π) : List (List (Happening σ)) → Except RunError Snapshot × World σ κ π
  | [] => (.error .noReply, ⟨site, []⟩)
  | batch :: later =>
    let site := site.play batch
    match site.exchange.channel.send? statusFrame with
    | some (.ok _) => awaitReply (site.move .ask) later
    | some (.error e) => (.error e, ⟨site, later⟩)
    | none => demand site later

def collect : Action (World σ κ π) Snapshot := fun w => demand w.site w.schedule

/-- The controls that an experiment uses. How long it rests is up to the schedule. -/
def controls : Controls (World σ κ π) where
  rest _ := rest
  collect := collect
  stop := throw .notRunning
  isIdentical := throw .notRunning
  prepared := throw .notRunning

def Leads (w w' : World σ κ π) : Prop :=
  (∃ moves, w'.site = w.site.follow moves ∧
    ∀ h, .happens h ∈ moves → ∃ batch ∈ w.schedule, h ∈ batch) ∧
  ∀ batch ∈ w'.schedule, batch ∈ w.schedule

theorem Leads.refl (w : World σ κ π) : w.Leads w :=
  ⟨⟨[], rfl, fun _ member => absurd member List.not_mem_nil⟩, fun _ member => member⟩

theorem Leads.trans {w w' w'' : World σ κ π} (first : w.Leads w') (second : w'.Leads w'') : w.Leads w'' := by
  obtain ⟨⟨moves, site, among⟩, later⟩ := first
  obtain ⟨⟨moves', site', among'⟩, later'⟩ := second
  refine ⟨⟨moves ++ moves', ?_, ?_⟩, fun batch member => later batch (later' batch member)⟩
  · rw [Site.follow_append, ← site, site']
  · intro h member
    rcases List.mem_append.mp member with member | member
    · exact among h member
    · obtain ⟨batch, scheduled, inside⟩ := among' h member
      exact ⟨batch, later batch scheduled, inside⟩

theorem leads_play (site : Site σ κ π) (batch : List (Happening σ)) (later : List (List (Happening σ))) :
    Leads ⟨site, batch :: later⟩ ⟨site.play batch, later⟩ := by
  refine ⟨⟨batch.map .happens, (site.follow_happens batch).symm, ?_⟩, fun _ => List.mem_cons_of_mem batch⟩
  intro h member
  obtain ⟨h', inside, same⟩ := List.mem_map.mp member
  cases same
  exact ⟨batch, List.mem_cons_self, inside⟩

theorem leads_move (site : Site σ κ π) (move : Move σ) (schedule : List (List (Happening σ)))
    (controller : ∀ h, move ≠ .happens h) : Leads ⟨site, schedule⟩ ⟨site.move move, schedule⟩ := by
  refine ⟨⟨[move], rfl, fun h member => ?_⟩, fun _ member => member⟩
  exact absurd (List.mem_singleton.mp member).symm (controller h)

theorem leads_rest (w : World σ κ π) : w.Leads w.rest ∧ w.site.exchange.Background w.rest.site.exchange := by
  obtain ⟨site, schedule⟩ := w
  cases schedule with
  | nil => exact ⟨Leads.refl _, Exchange.Background.refl _⟩
  | cons batch later => exact ⟨leads_play site batch later, site.background_play batch⟩

/-! ## Calls -/

theorem awaitReply_ok {schedule : List (List (Happening σ))} {site : Site σ κ π} {s : Snapshot}
    {w : World σ κ π} (awaiting : site.exchange.awaiting = true)
    (answered : awaitReply site schedule = (.ok s, w)) :
    Leads ⟨site, schedule⟩ w ∧
      ∃ d, site.exchange.Background d ∧ (d.step .receive).log = d.log ++ [.got (.ok s)] ∧
        w.site.exchange = d.step .receive := by
  induction schedule generalizing site with
  | nil => cases answered
  | cons batch later ih =>
      have background := site.background_play batch
      have awaiting' := background.awaiting.trans awaiting
      rw [awaitReply] at answered
      cases received : (site.play batch).exchange.channel.receive? with
      | none =>
          simp only [received] at answered
          obtain ⟨leads, d, background', rest⟩ := ih awaiting' answered
          exact ⟨(leads_play site batch later).trans leads, d, background.trans background', rest⟩
      | some found =>
          obtain ⟨result, channel⟩ := found
          simp only [received] at answered
          cases answered
          refine ⟨(leads_play site batch later).trans (leads_move _ .receive later fun _ same => by cases same), _,
            background, ?_, rfl⟩
          simp [Exchange.step, awaiting', received]

theorem demand_ok {schedule : List (List (Happening σ))} {site : Site σ κ π} {s : Snapshot}
    {w : World σ κ π} (answered : demand site schedule = (.ok s, w)) :
    Leads ⟨site, schedule⟩ w ∧ site.exchange.Call s w.site.exchange := by
  induction schedule generalizing site with
  | nil => cases answered
  | cons batch later ih =>
      have background := site.background_play batch
      have played := leads_play site batch later
      rw [demand] at answered
      cases sent : (site.play batch).exchange.channel.send? statusFrame with
      | none =>
          simp only [sent] at answered
          obtain ⟨leads, d₁, d₂, background', rest⟩ := ih answered
          exact ⟨played.trans leads, d₁, d₂, background.trans background', rest⟩
      | some result =>
          cases result with
          | error e =>
              simp only [sent] at answered
              cases answered
          | ok channel =>
              simp only [sent] at answered
              have asks : ((site.play batch).exchange.step .ask).awaiting = true := by
                simp only [Exchange.step, sent]
                split
                · next busy => exact busy
                · rfl
              obtain ⟨leads, d, background', got, rest⟩ := awaitReply_ok asks answered
              refine ⟨(played.trans (leads_move _ .ask later fun _ same => by cases same)).trans leads, _, d,
                background, asks, background', got, ?_⟩
              rw [rest]
              exact Exchange.Background.refl _

end World

end LedgerDrill
