import LedgerDrill.Control.Channel
import LedgerDrill.Proofs.Outcome.Bounds
import Mathlib.Data.List.Forall2
import Mathlib.Data.List.Induction

/-!
A controller, a responder and loops that take their steps in any order. Beside the channel and the registry
an exchange keeps a log of what has happened: every operation of a loop, every frame that was sent, every
snapshot that was taken and every reply that was received.
-/

namespace LedgerDrill.Control
open Outcome

/-! ## Events -/

inductive Note
  | did (op : Op)
  | posted (frame : String)
  | asked
  | took (snapshot : Snapshot)
  | got (result : Except RunError Snapshot)

structure Exchange where
  channel : Channel := Channel.serve {}
  registry : Registry := {}
  /-- Whether a call of the controller waits for its reply. -/
  awaiting : Bool := false
  /-- Oldest first. -/
  log : List Note := []

inductive Event
  | work (op : Op)
  | respond (now : Instant)
  | post (frame : String)
  | ask
  | receive
  /-- The call is cancelled while it waits. -/
  | giveUp

def isStatus (frame : String) : Bool := Command.decode frame matches .ok .status

def statusFrame : String := Command.encode Command.status.text

def opened (frame : String) : Except RunError Snapshot :=
  (Snapshot.ofFrame frame).mapError .malformedFrame

def Responder.hand : Responder → List String
  | .holding reply => [reply]
  | _ => []

namespace Exchange

def noted (d : Exchange) (now : Instant) : List Note :=
  match d.channel.responder, d.channel.request with
  | .receiving, some frame => if isStatus frame then [.took (d.registry.takeSnapshot now).1] else []
  | _, _ => []

/-- An event that cannot happen yet does nothing: it waits. -/
def step (d : Exchange) : Event → Exchange
  | .work op =>
    if op.isAllowed d.registry then
      { d with registry := d.registry.perform op, log := d.log ++ [.did op] }
    else d
  | .respond now =>
    match d.channel.respond? d.registry now with
    | some (channel, registry) => { d with channel, registry, log := d.log ++ d.noted now }
    | none => d
  | .post frame =>
    match d.channel.send? frame with
    | some (.ok channel) => { d with channel, log := d.log ++ [.posted frame] }
    | _ => d
  | .ask =>
    if d.awaiting then d
    else match d.channel.send? statusFrame with
      | some (.ok channel) => { d with channel, awaiting := true, log := d.log ++ [.asked] }
      | _ => d
  | .receive =>
    if !d.awaiting then d
    else match d.channel.receive? with
      | some (result, channel) => { d with channel, awaiting := false, log := d.log ++ [.got result] }
      | none => d
  | .giveUp => { d with awaiting := false }

def play (d : Exchange) (events : List Event) : Exchange := events.foldl step d

/-- An exchange with a responder that has just begun to serve, and no loops yet. -/
def run (events : List Event) : Exchange := play {} events

end Exchange

/-! ## Logs -/

def ops : List Note → List Op := List.filterMap fun
  | .did op => some op
  | _ => none

def taken : List Note → List Snapshot := List.filterMap fun
  | .took snapshot => some snapshot
  | _ => none

def received : List Note → List (Except RunError Snapshot) := List.filterMap fun
  | .got result => some result
  | _ => none

def demands : List Note → Nat := List.countP fun
  | .posted frame => isStatus frame
  | .asked => true
  | _ => false

/-- The operations since the last snapshot. -/
def window (log : List Note) : List Op :=
  log.foldl (fun open' note => match note with
    | .did op => open' ++ [op]
    | .took _ => []
    | _ => open') []

theorem ops_append (log more : List Note) : ops (log ++ more) = ops log ++ ops more :=
  List.filterMap_append

theorem taken_append (log more : List Note) : taken (log ++ more) = taken log ++ taken more :=
  List.filterMap_append

theorem taken_quiet (log more : List Note) (untaken : taken more = []) : taken (log ++ more) = taken log := by
  rw [taken_append, untaken, List.append_nil]

theorem received_append (log more : List Note) : received (log ++ more) = received log ++ received more :=
  List.filterMap_append

theorem demands_append (log more : List Note) : demands (log ++ more) = demands log + demands more :=
  List.countP_append

theorem window_append (log : List Note) {more : List Note} (none : taken more = []) :
    window (log ++ more) = window log ++ ops more := by
  induction more generalizing log with
  | nil => rw [List.append_nil]; exact (List.append_nil _).symm
  | cons note more ih =>
      have split : log ++ note :: more = (log ++ [note]) ++ more := (List.append_cons log note more)
      rw [split]
      cases note with
      | took s => contradiction
      | did op =>
          rw [ih _ none]
          simp [window, ops]
      | posted frame | asked | got result =>
          rw [ih _ none]
          simp [window, ops]

theorem window_took (log : List Note) (s : Snapshot) : window (log ++ [.took s]) = [] := by
  simp [window]

/-- Every snapshot shows the operations of its window. -/
def Reckoned (log : List Note) : Prop :=
  ∀ before s after, log = before ++ .took s :: after →
    ∀ g : Gauge, g.shown s = g.tally (window before)

theorem Reckoned.append {log : List Note} (reckoned : Reckoned log) {note : Note}
    (shows : ∀ s, note = .took s → ∀ g : Gauge, g.shown s = g.tally (window log)) :
    Reckoned (log ++ [note]) := by
  intro before s after split
  rcases List.eq_nil_or_concat after with rfl | ⟨after, last, rfl⟩
  · obtain ⟨rfl, same⟩ := List.append_inj' split rfl
    exact shows s (List.cons.inj same).1
  · rw [List.concat_eq_append, ← List.cons_append, ← List.append_assoc] at split
    obtain ⟨earlier, -⟩ := List.append_inj' split rfl
    exact reckoned before s after earlier

theorem Reckoned.of_append {log more : List Note} (reckoned : Reckoned (log ++ more)) : Reckoned log := by
  intro before s after split
  refine reckoned before s (after ++ more) ?_
  rw [split, List.append_assoc, List.cons_append]

/-- What all snapshots show together, and what is in the open window, is the tally of all operations. -/
theorem Reckoned.total {log : List Note} (reckoned : Reckoned log) (g : Gauge) :
    ((taken log).map g.shown).sum + g.tally (window log) = g.tally (ops log) := by
  induction log using List.reverseRecOn with
  | nil => rfl
  | append_singleton log note ih =>
      have before := ih reckoned.of_append
      have quiet (none : taken [note] = []) :
          ((taken (log ++ [note])).map g.shown).sum + g.tally (window (log ++ [note])) =
            g.tally (ops (log ++ [note])) := by
        rw [taken_append, none, List.append_nil, window_append log none, ops_append, g.tally_append,
          g.tally_append, ← before]
        omega
      cases note with
      | took s =>
          have shown := reckoned log s [] rfl g
          have last : taken [.took s] = [s] := rfl
          have nothing : ops [.took s] = [] := rfl
          rw [taken_append, last, List.map_append, List.sum_append, window_took, ops_append, nothing,
            List.append_nil, ← before, ← shown]
          rfl
      | did | posted | asked | got => exact quiet rfl

/-! ## Steps -/

structure Channel.Serves (c : Channel) : Prop where
  controlled : c.controlled = true
  responder : c.responder = .receiving ∨ ∃ reply, c.responder = .holding reply

theorem Channel.receive_eq (c : Channel) (frame : String) (registry : Registry) (now : Instant) :
    c.receive frame registry now =
      if isStatus frame then
        ({ c with request := none, responder := .holding (registry.takeSnapshot now).1.frame },
          (registry.takeSnapshot now).2)
      else ({ c with request := none }, registry) := by
  cases decoded : Command.decode frame with
  | error e => simp [receive, isStatus, decoded]
  | ok command => cases command <;> simp [receive, isStatus, decoded]

namespace Exchange

variable {d d' : Exchange} {event : Event}

inductive Step (d : Exchange) : Event → Exchange → Prop
  | waits {event : Event} : Step d event d
  | did {op : Op} (allowed : op.isAllowed d.registry = true) :
      Step d (.work op) { d with registry := d.registry.perform op, log := d.log ++ [.did op] }
  | ignored {frame : String} {now : Instant} (receiving : d.channel.responder = .receiving)
      (request : d.channel.request = some frame) (other : isStatus frame = false) :
      Step d (.respond now) { d with channel := { d.channel with request := none } }
  | took {frame : String} {now : Instant} (receiving : d.channel.responder = .receiving)
      (request : d.channel.request = some frame) (status : isStatus frame = true) :
      Step d (.respond now)
        { d with
          channel := { d.channel with
            request := none, responder := .holding (d.registry.takeSnapshot now).1.frame }
          registry := (d.registry.takeSnapshot now).2
          log := d.log ++ [.took (d.registry.takeSnapshot now).1] }
  | delivered {reply : String} {now : Instant} (holding : d.channel.responder = .holding reply)
      (free : d.channel.reply = none) :
      Step d (.respond now)
        { d with channel := { d.channel with reply := some reply, responder := .receiving } }
  | posted {frame : String} (free : d.channel.request = none) :
      Step d (.post frame)
        { d with channel := { d.channel with request := some frame }, log := d.log ++ [.posted frame] }
  | asked (idle : d.awaiting = false) (free : d.channel.request = none) :
      Step d .ask
        { d with
          channel := { d.channel with request := some statusFrame }, awaiting := true
          log := d.log ++ [.asked] }
  | got {frame : String} (awaits : d.awaiting = true) (reply : d.channel.reply = some frame) :
      Step d .receive
        { d with
          channel := { d.channel with reply := none }, awaiting := false
          log := d.log ++ [.got (opened frame)] }
  | gaveUp : Step d .giveUp { d with awaiting := false }

theorem step_ignored {frame : String} (receiving : d.channel.responder = .receiving)
    (request : d.channel.request = some frame) (other : isStatus frame = false) (now : Instant) :
    d.step (.respond now) = { d with channel := { d.channel with request := none } } := by
  have answered := d.channel.receive_eq frame d.registry now
  simp [step, Channel.respond?, noted, receiving, request, answered, other]

theorem step_respond (serves : d.channel.Serves) (now : Instant) :
    Step d (.respond now) (d.step (.respond now)) := by
  rcases serves.responder with receiving | ⟨held, holding⟩
  · cases request : d.channel.request with
    | none =>
        have still : d.step (.respond now) = d := by
          simp [step, Channel.respond?, receiving, request, serves.controlled]
        rw [still]
        exact .waits
    | some frame =>
        cases status : isStatus frame with
        | false =>
            rw [step_ignored receiving request status]
            exact .ignored receiving request status
        | true =>
            have answered := d.channel.receive_eq frame d.registry now
            rw [step, Channel.respond?, receiving, request]
            simp only [answered, status, ↓reduceIte, noted, receiving, request]
            exact .took receiving request status
  · cases reply : d.channel.reply with
    | none =>
        have delivered : d.step (.respond now) =
            { d with channel := { d.channel with reply := some held, responder := .receiving } } := by
          simp [step, Channel.respond?, noted, holding, reply, serves.controlled]
        rw [delivered]
        exact .delivered holding reply
    | some _ =>
        have still : d.step (.respond now) = d := by
          simp [step, Channel.respond?, holding, reply, serves.controlled]
        rw [still]
        exact .waits

theorem step_cases (serves : d.channel.Serves) (event : Event) : Step d event (d.step event) := by
  have present : d.channel.responder.isGone = false := by
    rcases serves.responder with receiving | ⟨held, holding⟩
    · rw [receiving]; rfl
    · rw [holding]; rfl
  cases event with
  | respond now => exact step_respond serves now
  | giveUp => exact .gaveUp
  | work op =>
      simp only [step]
      split
      · next allowed => exact .did allowed
      · exact .waits
  | post frame =>
      cases request : d.channel.request with
      | none =>
          simp only [step, Channel.send?, present, request]
          exact .posted request
      | some _ =>
          simp only [step, Channel.send?, present, request]
          exact .waits
  | ask =>
      cases busy : d.awaiting with
      | true => simp only [step, busy, ↓reduceIte]; exact .waits
      | false =>
          cases request : d.channel.request with
          | none =>
              simp only [step, busy, Channel.send?, present, request]
              exact .asked busy request
          | some _ =>
              simp only [step, busy, Channel.send?, present, request]
              exact .waits
  | receive =>
      cases busy : d.awaiting with
      | false => simp only [step, busy]; exact .waits
      | true =>
          cases reply : d.channel.reply with
          | none =>
              simp only [step, busy, Channel.receive?, present, reply]
              exact .waits
          | some frame =>
              simp only [step, busy, Channel.receive?, reply]
              exact .got busy reply

end Exchange

/-! ## What every step keeps -/

/-- The result of a call that received a snapshot. Only a snapshot whose numbers fit into 64 bits can be
read from its frame. -/
def Conveys (s : Snapshot) (result : Except RunError Snapshot) : Prop :=
  (s.Fits → result = .ok s) ∧ (¬ s.Fits → ∃ e, result = .error e)

theorem conveys_opened (s : Snapshot) : Conveys s (opened s.frame) := by
  obtain ⟨read, refused⟩ := s.gives_frame
  constructor
  · intro fits
    rw [opened, read fits]
    rfl
  · intro exceeds
    obtain ⟨e, error⟩ := refused exceeds
    exact ⟨_, by rw [opened, error]; rfl⟩

theorem results_of_fits {snapshots : List Snapshot} {results : List (Except RunError Snapshot)}
    (conveyed : List.Forall₂ Conveys snapshots results) (fits : ∀ s ∈ snapshots, s.Fits) :
    results = snapshots.map .ok := by
  induction conveyed with
  | nil => rfl
  | cons first _ ih =>
      obtain ⟨fitsFirst, fitsOthers⟩ := List.forall_mem_cons.mp fits
      rw [first.1 fitsFirst, ih fitsOthers, List.map_cons]

def Split (log : List Note) (frames : List String) : Prop :=
  ∃ delivered waiting, taken log = delivered ++ waiting ∧ waiting.map Snapshot.frame = frames ∧
    List.Forall₂ Conveys delivered (received log)

theorem Split.quiet {log more : List Note} {frames : List String} (split : Split log frames)
    (untaken : taken more = []) (unreceived : received more = []) : Split (log ++ more) frames := by
  rwa [Split, taken_append, untaken, received_append, unreceived, List.append_nil, List.append_nil]

theorem Split.took {log : List Note} {frames : List String} (split : Split log frames) (s : Snapshot) :
    Split (log ++ [.took s]) (frames ++ [s.frame]) := by
  obtain ⟨delivered, waiting, all, rfl, conveyed⟩ := split
  refine ⟨delivered, waiting ++ [s], ?_, List.map_append, ?_⟩
  · rw [taken_append, all, List.append_assoc]
    rfl
  · rw [received_append]
    exact (List.append_nil _).symm ▸ conveyed

theorem Split.got {log : List Note} {frame : String} {frames : List String}
    (split : Split log (frame :: frames)) : Split (log ++ [.got (opened frame)]) frames := by
  obtain ⟨delivered, waiting, all, same, conveyed⟩ := split
  cases waiting with
  | nil => contradiction
  | cons s waiting =>
      obtain ⟨rfl, rfl⟩ := List.cons.inj same
      refine ⟨delivered ++ [s], waiting, ?_, rfl, ?_⟩
      · rw [taken_append, all]
        simp [taken]
      · rw [received_append]
        exact List.rel_append conveyed (.cons (conveys_opened s) .nil)

namespace Exchange

structure Sound (d : Exchange) : Prop where
  serves : d.channel.Serves
  split : Split d.log (d.channel.reply.toList ++ d.channel.responder.hand)
  demands : demands d.log = (taken d.log).length + d.channel.request.toList.countP isStatus
  reckoned : Reckoned d.log
  live : ∀ g : Gauge, g.live d.registry = g.tally (window d.log)

theorem sound_start : Sound {} where
  serves := ⟨rfl, Or.inl rfl⟩
  split := ⟨[], [], rfl, rfl, .nil⟩
  demands := rfl
  reckoned before s after split := by simp at split
  live _ := rfl

theorem isStatus_statusFrame : isStatus statusFrame = true := by decide

theorem Sound.quiet (sound : Sound d) (note : Note) (untaken : taken [note] = []) (unworked : ops [note] = []) :
    Reckoned (d.log ++ [note]) ∧ ∀ g : Gauge, g.live d.registry = g.tally (window (d.log ++ [note])) := by
  constructor
  · apply sound.reckoned.append
    rintro s rfl
    contradiction
  · intro g
    rw [window_append d.log untaken, unworked, List.append_nil]
    exact sound.live g

theorem Sound.step (sound : Sound d) (event : Event) : Sound (d.step event) := by
  have cases := step_cases sound.serves event
  generalize d.step event = d' at cases
  cases cases with
  | waits => exact sound
  | gaveUp => exact ⟨sound.serves, sound.split, sound.demands, sound.reckoned, sound.live⟩
  | @did op allowed =>
      refine ⟨sound.serves, sound.split.quiet rfl rfl, ?_, ?_, ?_⟩
      · rw [demands_append, taken_quiet d.log [.did op] rfl, sound.demands]
        rfl
      · apply sound.reckoned.append
        intro s same
        contradiction
      · intro g
        rw [window_append d.log rfl, g.tally_append, g.live_perform allowed, sound.live g]
        rfl
  | ignored receiving request other =>
      refine ⟨⟨sound.serves.controlled, sound.serves.responder⟩, sound.split, ?_, sound.reckoned, sound.live⟩
      have demands := sound.demands
      rw [request] at demands
      simpa [other] using demands
  | @took frame now receiving request status =>
      refine ⟨⟨sound.serves.controlled, Or.inr ⟨_, rfl⟩⟩, ?_, ?_, ?_, ?_⟩
      · have split := sound.split.took (d.registry.takeSnapshot now).1
        simpa [receiving, Responder.hand] using split
      · have demands := sound.demands
        rw [request] at demands
        rw [taken_append, demands_append]
        simpa [status, taken, Control.demands] using demands
      · apply sound.reckoned.append
        rintro s ⟨⟩ g
        rw [g.shown_takeSnapshot, sound.live g]
      · intro g
        rw [window_took, g.live_takeSnapshot]
        rfl
  | delivered holding free =>
      refine ⟨⟨sound.serves.controlled, Or.inl rfl⟩, ?_, sound.demands, sound.reckoned, sound.live⟩
      have split := sound.split
      simpa [holding, free, Responder.hand] using split
  | @posted frame free =>
      obtain ⟨reckoned, live⟩ := sound.quiet (.posted frame) rfl rfl
      refine ⟨⟨sound.serves.controlled, sound.serves.responder⟩, sound.split.quiet rfl rfl, ?_, reckoned, live⟩
      rw [demands_append, taken_quiet d.log [.posted frame] rfl, sound.demands, free]
      rfl
  | asked idle free =>
      obtain ⟨reckoned, live⟩ := sound.quiet .asked rfl rfl
      refine ⟨⟨sound.serves.controlled, sound.serves.responder⟩, sound.split.quiet rfl rfl, ?_, reckoned, live⟩
      rw [demands_append, taken_quiet d.log [.asked] rfl, sound.demands, free, Option.toList_some,
        List.countP_singleton, isStatus_statusFrame]
      rfl
  | @got frame awaits reply =>
      obtain ⟨reckoned, live⟩ := sound.quiet (.got (opened frame)) rfl rfl
      refine ⟨⟨sound.serves.controlled, sound.serves.responder⟩, ?_, ?_, reckoned, live⟩
      · have split := sound.split
        rw [reply] at split
        exact split.got
      · rw [demands_append, taken_quiet d.log [.got (opened frame)] rfl, sound.demands]
        rfl

theorem sound_play (sound : Sound d) (events : List Event) : Sound (d.play events) :=
  List.foldlRecOn (motive := Sound) events step sound fun _ sound event _ => sound.step event

/-! ## What arrives -/

structure Throughout (p : Registry → Prop) (q : Snapshot → Prop) (d : Exchange) : Prop where
  registry : p d.registry
  taken : ∀ s ∈ taken d.log, q s

theorem Throughout.step {p p' : Registry → Prop} {q q' : Snapshot → Prop} (holds : Throughout p q d)
    (serves : d.channel.Serves) (kept : ∀ r, p r → p' r) (keptTaken : ∀ s, q s → q' s)
    (performed : ∀ op r, event = .work op → p r → p' (r.perform op)) (cleared : ∀ r, p r → p' r.clear)
    (shown : ∀ r now, p r → q' (r.peek now)) : Throughout p' q' (d.step event) := by
  have still : ∀ s ∈ Control.taken d.log, q' s := fun s member => keptTaken s (holds.taken s member)
  have cases := step_cases serves event
  generalize d.step event = d' at cases
  cases cases with
  | waits | gaveUp | ignored | delivered => exact ⟨kept _ holds.registry, still⟩
  | @did op allowed =>
      refine ⟨performed op _ rfl holds.registry, ?_⟩
      rw [taken_quiet d.log [.did op] rfl]
      exact still
  | @took frame now receiving request status =>
      refine ⟨cleared _ holds.registry, ?_⟩
      rw [taken_append]
      intro s member
      rcases List.mem_append.mp member with member | member
      · exact still s member
      · obtain rfl := List.mem_singleton.mp member
        exact shown _ now holds.registry
  | @posted frame free =>
      refine ⟨kept _ holds.registry, ?_⟩
      rw [taken_quiet d.log [.posted frame] rfl]
      exact still
  | asked =>
      refine ⟨kept _ holds.registry, ?_⟩
      rw [taken_quiet d.log [.asked] rfl]
      exact still
  | @got frame =>
      refine ⟨kept _ holds.registry, ?_⟩
      rw [taken_quiet d.log [.got (opened frame)] rfl]
      exact still

abbrev Counted (bound : Nat) : Exchange → Prop := Throughout (·.Within bound) (·.Within bound)

abbrev Small : Exchange → Prop := Throughout (·.Small) (·.Small)

theorem counted_start (bound : Nat) : Counted bound {} :=
  ⟨fun _ member => absurd member List.not_mem_nil, fun _ member => absurd member List.not_mem_nil⟩

theorem Counted.step {bound : Nat} (counted : Counted bound d) (serves : d.channel.Serves)
    (event : Event) : Counted (bound + 1) (d.step event) :=
  Throughout.step counted serves (fun _ within => within.succ) (fun _ within => within.succ)
    (fun op _ _ within => within.perform op) (fun r _ => r.within_clear _)
    fun _ now within => (within.peek now).succ

theorem counted_play {bound : Nat} (counted : Counted bound d) (sound : Sound d) (events : List Event) :
    Counted (bound + events.length) (d.play events) := by
  induction events generalizing d bound with
  | nil => exact counted
  | cons event events ih =>
      have later := ih (counted.step sound.serves event) (sound.step event)
      rw [List.length_cons, Nat.add_comm events.length, ← Nat.add_assoc]
      exact later

theorem small_play (small : Small d) (sound : Sound d) {events : List Event}
    (new : ∀ key, .work (.register key) ∈ events → key.node < wordBound) : Small (d.play events) := by
  induction events generalizing d with
  | nil => exact small
  | cons event events ih =>
      have first : Small (d.step event) :=
        Throughout.step small sound.serves (fun _ kept => kept) (fun _ kept => kept)
          (fun op _ same kept => kept.perform fun key registers =>
            new key (by rw [same, registers]; exact List.mem_cons_self))
          (fun _ kept => kept.clear) fun _ now kept => kept.peek now
      exact ih first (sound.step event) fun key member => new key (List.mem_cons_of_mem _ member)

/-- Whatever the loops, the responder and the controller do, the results of the calls are in their order
those of the first snapshots that were taken. The others, two at most, are in the slot for replies and in the
hand of the responder. Snapshots that were received, snapshots on their way and the open window show together
every outcome and every violation of every loop once. Every snapshot answers one status command; other frames
are taken away without any effect. -/
theorem nothing_lost (events : List Event) :
    let d := run events
    ∃ delivered waiting,
      taken d.log = delivered ++ waiting ∧
      waiting.map Snapshot.frame = d.channel.reply.toList ++ d.channel.responder.hand ∧
      waiting.length ≤ 2 ∧
      List.Forall₂ Conveys delivered (received d.log) ∧
      (events.length < wordBound →
        (∀ key, .work (.register key) ∈ events → key.node < wordBound) →
        received d.log = delivered.map .ok) ∧
      (∀ key label,
        (delivered.map (·.count key label)).sum + (waiting.map (·.count key label)).sum +
          d.registry.count key label = (ops d.log).countP (Op.appends key label)) ∧
      (∀ key,
        (delivered.map (·.alarms key)).sum + (waiting.map (·.alarms key)).sum + d.registry.alarms key =
          (ops d.log).countP (Op.violates key)) ∧
      demands d.log = (taken d.log).length + d.channel.request.toList.countP isStatus ∧
      ∀ frame now, isStatus frame = false → d.channel.request = some frame →
        d.channel.responder = .receiving →
        d.step (.respond now) = { d with channel := { d.channel with request := none } } := by
  intro d
  have sound : Sound d := sound_play sound_start events
  obtain ⟨delivered, waiting, all, frames, conveyed⟩ := sound.split
  have total (g : Gauge) :
      (delivered.map g.shown).sum + (waiting.map g.shown).sum + g.live d.registry = g.tally (ops d.log) := by
    rw [← List.sum_append, ← List.map_append, ← all, sound.live]
    exact sound.reckoned.total g
  refine ⟨delivered, waiting, all, frames, ?_, conveyed, ?_, ?_, ?_, sound.demands, ?_⟩
  · have lengths := congrArg List.length frames
    rw [List.length_map, List.length_append] at lengths
    have slot : d.channel.reply.toList.length ≤ 1 := by cases d.channel.reply <;> simp
    have hand : d.channel.responder.hand.length ≤ 1 := by cases d.channel.responder <;> simp [Responder.hand]
    omega
  · intro few new
    -- With fewer events than that no count has grown too large for its frame.
    have counted := counted_play (counted_start 0) sound_start events
    have start : Small {} := ⟨fun _ member => absurd member List.not_mem_nil,
      fun _ member => absurd member List.not_mem_nil⟩
    have small := small_play start sound_start new
    refine results_of_fits conveyed fun s member => ?_
    have wasTaken : s ∈ taken d.log := all ▸ List.mem_append_left _ member
    exact (counted.taken s wasTaken).fits (by omega) (small.taken s wasTaken)
  · intro key label
    have counted := total (.outcomes key label)
    rwa [tally_outcomes, live_outcomes] at counted
  · intro key
    have counted := total (.violations key)
    rwa [tally_violations, live_violations] at counted
  · exact fun frame now other request receiving => step_ignored receiving request other now

/-- A call that is cancelled while it waits for its reply, and a later one that gets this reply. -/
def lateReply : List Event :=
  [.work (.register ⟨0, .transfer⟩), .work (.record ⟨0, .transfer⟩ "commit" .zero false),
    .post "\"reset\"", .respond 0, .ask, .respond 0, .respond 0, .giveUp,
    .work (.record ⟨0, .transfer⟩ "commit" .zero true), .ask, .respond 0, .receive,
    .work (.violate ⟨0, .transfer⟩)]

theorem received_of_lateReply :
    let d := run lateReply
    ∃ first second, taken d.log = [first, second] ∧ received d.log = [.ok first] ∧
      first.alarms ⟨0, .transfer⟩ + second.alarms ⟨0, .transfer⟩ = 1 ∧
      d.channel.responder.hand = [second.frame] := by
  intro d
  obtain ⟨delivered, waiting, all, frames, -, conveyed, exact, -, alarms, -⟩ := nothing_lost lateReply
  have results : received d.log = delivered.map .ok :=
    exact (by decide) fun key member => by
      have same : key = ⟨0, .transfer⟩ := by simpa [lateReply] using member
      rw [same]
      decide
  have one : (received d.log).length = 1 := by decide
  have two : (taken d.log).length = 2 := by decide
  have noReply : d.channel.reply = none := by decide
  rw [results, List.length_map] at one
  obtain ⟨first, rfl⟩ := List.length_eq_one_iff.mp one
  have rest : waiting.length = 1 := by
    rw [all, List.length_append] at two
    omega
  obtain ⟨second, rfl⟩ := List.length_eq_one_iff.mp rest
  refine ⟨first, second, all, results, ?_, ?_⟩
  · have counted := alarms ⟨0, .transfer⟩
    have live : (run lateReply).registry.alarms ⟨0, .transfer⟩ = 1 := by decide
    have raised : (ops (run lateReply).log).countP (Op.violates ⟨0, .transfer⟩) = 2 := by decide
    rw [live, raised] at counted
    simpa using counted
  · rw [noReply] at frames
    exact frames.symm

end Exchange

end LedgerDrill.Control
