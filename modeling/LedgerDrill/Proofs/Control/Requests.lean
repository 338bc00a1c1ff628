import LedgerDrill.Proofs.Control.Exchange

namespace LedgerDrill.Control
open Outcome

/-- An event that leaves no reply behind which nobody waits for. -/
def Event.isOrderly : Event → Bool
  | .giveUp => false
  | .post frame => !isStatus frame
  | _ => true

/-! ## Quiet logs -/

/-- Nothing but operations of loops, and commands without a reply. -/
def Quiet (notes : List Note) : Prop :=
  ∀ note ∈ notes, (∃ op, note = .did op) ∨ ∃ frame, note = .posted frame ∧ isStatus frame = false

theorem quiet_nil : Quiet [] := fun _ member => absurd member List.not_mem_nil

theorem quiet_did (op : Op) : Quiet [.did op] := fun _ member =>
  Or.inl ⟨op, List.mem_singleton.mp member⟩

theorem quiet_posted {frame : String} (other : isStatus frame = false) : Quiet [.posted frame] :=
  fun _ member => Or.inr ⟨frame, List.mem_singleton.mp member, other⟩

theorem Quiet.append {notes more : List Note} (quiet : Quiet notes) (quiet' : Quiet more) :
    Quiet (notes ++ more) := by
  intro note member
  rcases List.mem_append.mp member with member | member
  · exact quiet note member
  · exact quiet' note member

theorem Quiet.untaken {notes : List Note} (quiet : Quiet notes) : taken notes = [] := by
  rw [taken, List.filterMap_eq_nil_iff]
  intro note member
  rcases quiet note member with ⟨op, rfl⟩ | ⟨frame, rfl, _⟩
  · rfl
  · rfl

theorem Quiet.unreceived {notes : List Note} (quiet : Quiet notes) : received notes = [] := by
  rw [received, List.filterMap_eq_nil_iff]
  intro note member
  rcases quiet note member with ⟨op, rfl⟩ | ⟨frame, rfl, _⟩
  · rfl
  · rfl

theorem got_of_append {log more before after : List Note} {result : Except RunError Snapshot}
    (unreceived : received more = []) (split : log ++ more = before ++ .got result :: after) :
    ∃ after, log = before ++ .got result :: after := by
  have absent : .got result ∉ more := by
    intro member
    rw [received, List.filterMap_eq_nil_iff] at unreceived
    exact absurd (unreceived _ member) (by simp)
  rcases List.append_eq_append_iff.mp split with ⟨middle, rfl, rest⟩ | ⟨middle, rfl, rest⟩
  · rw [rest] at absent
    exact absurd (List.mem_append_right _ List.mem_cons_self) absent
  · cases middle with
    | nil =>
        rw [List.nil_append] at rest
        rw [← rest] at absent
        exact absurd List.mem_cons_self absent
    | cons note middle =>
        obtain ⟨rfl, -⟩ := List.cons.inj rest
        exact ⟨middle, rfl⟩

namespace Exchange

variable {d : Exchange} {event : Event} {base mid : List Note}

/-! ## Between two calls and during a call -/

structure Idle (d : Exchange) : Prop where
  awaiting : d.awaiting = false
  receiving : d.channel.responder = .receiving
  reply : d.channel.reply = none
  request : ∀ frame, d.channel.request = some frame → isStatus frame = false

/-- How far a call has got, with what has happened since it sent its frame. -/
inductive Stage (c : Channel) : List Note → Prop
  | sent {frame : String} {early : List Note} (request : c.request = some frame)
      (status : isStatus frame = true) (receiving : c.responder = .receiving) (reply : c.reply = none)
      (quiet : Quiet early) : Stage c early
  | answered {early late : List Note} {s : Snapshot}
      (request : ∀ frame, c.request = some frame → isStatus frame = false)
      (frames : c.reply.toList ++ c.responder.hand = [s.frame]) (quiet : Quiet early)
      (quiet' : Quiet late) : Stage c (early ++ .took s :: late)

structure Called (base : List Note) (d : Exchange) : Prop where
  awaiting : d.awaiting = true
  log : ∃ mid, d.log = base ++ .asked :: mid ∧ Stage d.channel mid

/-- What a call returns was taken during this call, and every earlier snapshot was returned by an earlier
one. -/
def Fresh (before : List Note) (result : Except RunError Snapshot) : Prop :=
  ∃ earlier early s late,
    before = earlier ++ .asked :: (early ++ .took s :: late) ∧ Quiet early ∧ Quiet late ∧
    Conveys s result ∧ List.Forall₂ Conveys (taken earlier) (received earlier)

theorem Idle.conveyed (idle : Idle d) (sound : Sound d) :
    List.Forall₂ Conveys (taken d.log) (received d.log) := by
  obtain ⟨delivered, waiting, all, frames, conveyed⟩ := sound.split
  rw [idle.reply, idle.receiving] at frames
  obtain rfl := List.map_eq_nil_iff.mp frames
  rw [all, List.append_nil]
  exact conveyed

theorem Idle.step (idle : Idle d) (sound : Sound d) (orderly : event.isOrderly = true) :
    (Idle (d.step event) ∧ ∃ more, (d.step event).log = d.log ++ more ∧ Quiet more) ∨
      (event = .ask ∧ Called d.log (d.step event)) := by
  have cases := step_cases sound.serves event
  generalize d.step event = d' at cases
  cases cases with
  | waits => exact Or.inl ⟨idle, [], (List.append_nil _).symm, quiet_nil⟩
  | @did op allowed =>
      exact Or.inl ⟨⟨idle.awaiting, idle.receiving, idle.reply, idle.request⟩, _, rfl, quiet_did op⟩
  | ignored receiving request other =>
      exact Or.inl ⟨⟨idle.awaiting, idle.receiving, idle.reply, fun _ same => (by cases same)⟩, [],
        (List.append_nil _).symm, quiet_nil⟩
  | took receiving request status =>
      rw [idle.request _ request] at status
      contradiction
  | delivered holding free =>
      rw [idle.receiving] at holding
      contradiction
  | @posted frame free =>
      have other : isStatus frame = false := by simpa [Event.isOrderly] using orderly
      refine Or.inl ⟨⟨idle.awaiting, idle.receiving, idle.reply, ?_⟩, _, rfl, quiet_posted other⟩
      rintro _ ⟨⟩
      exact other
  | asked _ free =>
      exact Or.inr ⟨rfl, rfl, [], rfl, .sent rfl isStatus_statusFrame idle.receiving idle.reply quiet_nil⟩
  | got awaits reply =>
      rw [idle.awaiting] at awaits
      contradiction
  | gaveUp => contradiction

theorem Called.step_sent {frame : String} (awaiting : d.awaiting = true) (log : d.log = base ++ .asked :: mid)
    (request : d.channel.request = some frame) (status : isStatus frame = true)
    (receiving : d.channel.responder = .receiving) (reply : d.channel.reply = none) (quiet : Quiet mid)
    (sound : Sound d) (orderly : event.isOrderly = true) : Called base (d.step event) := by
  have cases := step_cases sound.serves event
  generalize d.step event = d' at cases
  have longer (more : List Note) : d.log ++ more = base ++ .asked :: (mid ++ more) := by
    rw [log, List.append_assoc, List.cons_append]
  cases cases with
  | waits => exact ⟨awaiting, mid, log, .sent request status receiving reply quiet⟩
  | @did op allowed =>
      exact ⟨awaiting, _, longer _, .sent request status receiving reply (quiet.append (quiet_did op))⟩
  | ignored _ request' other =>
      rw [request] at request'
      cases request'
      rw [status] at other
      contradiction
  | took =>
      refine ⟨awaiting, _, longer _, .answered ?_ ?_ quiet quiet_nil⟩
      · rintro _ ⟨⟩
      · rw [reply]
        rfl
  | delivered holding free =>
      rw [receiving] at holding
      contradiction
  | posted free =>
      rw [request] at free
      contradiction
  | asked idle free =>
      rw [awaiting] at idle
      contradiction
  | got _ reply' =>
      rw [reply] at reply'
      contradiction
  | gaveUp => contradiction

theorem Called.step_answered {early late : List Note} {s : Snapshot} (awaiting : d.awaiting = true)
    (log : d.log = base ++ .asked :: (early ++ .took s :: late))
    (request : ∀ frame, d.channel.request = some frame → isStatus frame = false)
    (frames : d.channel.reply.toList ++ d.channel.responder.hand = [s.frame]) (quiet : Quiet early)
    (quiet' : Quiet late) (sound : Sound d) (orderly : event.isOrderly = true) :
    Called base (d.step event) ∨
      (event = .receive ∧ Idle (d.step event) ∧ (d.step event).log = d.log ++ [.got (opened s.frame)]) := by
  have cases := step_cases sound.serves event
  generalize d.step event = d' at cases
  have longer (more : List Note) : d.log ++ more = base ++ .asked :: (early ++ .took s :: (late ++ more)) := by
    simp only [log, List.append_assoc, List.cons_append]
  cases cases with
  | waits => exact Or.inl ⟨awaiting, _, log, .answered request frames quiet quiet'⟩
  | @did op allowed =>
      exact Or.inl ⟨awaiting, _, longer _, .answered request frames quiet (quiet'.append (quiet_did op))⟩
  | ignored =>
      exact Or.inl ⟨awaiting, _, log, .answered (fun _ same => (by cases same)) frames quiet quiet'⟩
  | took receiving request' status =>
      rw [request _ request'] at status
      contradiction
  | delivered holding free =>
      rw [holding, free] at frames
      exact Or.inl ⟨awaiting, _, log, .answered request frames quiet quiet'⟩
  | @posted frame free =>
      have other : isStatus frame = false := by simpa [Event.isOrderly] using orderly
      refine Or.inl ⟨awaiting, _, longer _, .answered ?_ frames quiet (quiet'.append (quiet_posted other))⟩
      rintro _ ⟨⟩
      exact other
  | asked idle free =>
      rw [awaiting] at idle
      contradiction
  | @got frame _ reply =>
      rw [reply] at frames
      obtain ⟨rfl, empty⟩ := List.cons.inj frames
      have receiving : d.channel.responder = .receiving := by
        rcases sound.serves.responder with receiving | ⟨held, holding⟩
        · exact receiving
        · rw [holding] at empty
          contradiction
      exact Or.inr ⟨rfl, ⟨rfl, receiving, rfl, request⟩, rfl⟩
  | gaveUp => contradiction

theorem Called.step (called : Called base d) (sound : Sound d) (orderly : event.isOrderly = true) :
    Called base (d.step event) ∨
      (event = .receive ∧ Idle (d.step event) ∧
        ∃ early s late, d.log = base ++ .asked :: (early ++ .took s :: late) ∧
          (d.step event).log = d.log ++ [.got (opened s.frame)] ∧ Quiet early ∧ Quiet late) := by
  obtain ⟨awaiting, mid, log, stage⟩ := called
  cases stage with
  | sent request status receiving reply quiet =>
      exact Or.inl (Called.step_sent awaiting log request status receiving reply quiet sound orderly)
  | @answered early late s request frames quiet quiet' =>
      rcases Called.step_answered awaiting log request frames quiet quiet' sound orderly with
        called | ⟨received, idle, longer⟩
      · exact Or.inl called
      · exact Or.inr ⟨received, idle, early, s, late, log, longer, quiet, quiet'⟩

theorem log_step (sound : Sound d) (event : Event) :
    ∃ more, (d.step event).log = d.log ++ more ∧
      (received more = [] ∨ (d.step event).awaiting = false) := by
  have cases := step_cases sound.serves event
  generalize d.step event = d' at cases
  cases cases with
  | waits | ignored | delivered | gaveUp => exact ⟨[], (List.append_nil _).symm, Or.inl rfl⟩
  | did | took | posted | asked => exact ⟨_, rfl, Or.inl rfl⟩
  | got => exact ⟨_, rfl, Or.inr rfl⟩

/-! ## Orderly runs -/

structure Orderly (d : Exchange) : Prop where
  sound : Sound d
  counted : ∃ bound, Counted bound d
  phase : Idle d ∨
    ∃ base, Called base d ∧ List.Forall₂ Conveys (taken base) (received base)
  fresh : ∀ before result after, d.log = before ++ .got result :: after → Fresh before result

theorem orderly_start : Orderly {} where
  sound := sound_start
  counted := ⟨0, counted_start 0⟩
  phase := Or.inl ⟨rfl, rfl, rfl, fun _ same => (by cases same)⟩
  fresh before result after split := by simp at split

theorem Orderly.step (orderly : Orderly d) (allowed : event.isOrderly = true) : Orderly (d.step event) := by
  have sound := orderly.sound
  obtain ⟨bound, counted⟩ := orderly.counted
  have counted' : ∃ bound, Counted bound (d.step event) := ⟨_, counted.step sound.serves event⟩
  have kept {more : List Note} (longer : (d.step event).log = d.log ++ more)
      (unreceived : received more = []) :
      ∀ before result after, (d.step event).log = before ++ .got result :: after → Fresh before result := by
    intro before result after split
    obtain ⟨after, earlier⟩ := got_of_append unreceived (longer ▸ split)
    exact orderly.fresh before result after earlier
  rcases orderly.phase with idle | ⟨base, called, conveyed⟩
  · rcases idle.step sound allowed with ⟨idle', more, longer, quiet⟩ | ⟨rfl, called⟩
    · exact ⟨sound.step event, counted', Or.inl idle', kept longer quiet.unreceived⟩
    · obtain ⟨more, longer, none⟩ := log_step sound .ask
      have unreceived := none.resolve_right (by rw [called.awaiting]; decide)
      exact ⟨sound.step .ask, counted', Or.inr ⟨d.log, called, idle.conveyed sound⟩, kept longer unreceived⟩
  · rcases called.step sound allowed with called' | ⟨rfl, idle, early, s, late, log, longer, quiet, quiet'⟩
    · obtain ⟨more, longer, none⟩ := log_step sound event
      have unreceived := none.resolve_right (by rw [called'.awaiting]; decide)
      exact ⟨sound.step event, counted', Or.inr ⟨base, called', conveyed⟩, kept longer unreceived⟩
    · refine ⟨sound.step .receive, counted', Or.inl idle, ?_⟩
      intro before result after split
      rw [longer] at split
      rcases List.eq_nil_or_concat after with rfl | ⟨after, last, rfl⟩
      · obtain ⟨rfl, same⟩ := List.append_inj' split rfl
        obtain rfl := Note.got.inj (List.cons.inj same).1
        exact ⟨base, early, s, late, log, quiet, quiet', conveys_opened s, conveyed⟩
      · rw [List.concat_eq_append, ← List.cons_append, ← List.append_assoc] at split
        obtain ⟨earlier, -⟩ := List.append_inj' split rfl
        exact orderly.fresh before result after earlier

theorem orderly_play (orderly : Orderly d) {events : List Event}
    (allowed : ∀ event ∈ events, event.isOrderly = true) : Orderly (d.play events) :=
  List.foldlRecOn (motive := Orderly) events Exchange.step orderly fun _ orderly event member =>
    orderly.step (allowed event member)

/-- As long as every call runs to its end and no status command is sent beside the calls, the slot for
replies and the hand of the responder are empty whenever a call can send its frame. The snapshot that a call
returns was taken after it had sent its frame; the snapshots before that are those that earlier calls have
returned. So it shows just what was recorded since the one of the call before was taken. -/
theorem replies_are_fresh (events : List Event) (allowed : ∀ event ∈ events, event.isOrderly = true) :
    let d := run events
    (∀ earlier later, events = earlier ++ .ask :: later → (run earlier).awaiting = false →
      (run earlier).channel.reply = none ∧ (run earlier).channel.responder.hand = []) ∧
    ∀ before result after, d.log = before ++ .got result :: after →
      ∃ earlier early s late,
        before = earlier ++ .asked :: (early ++ .took s :: late) ∧ Quiet early ∧ Quiet late ∧
        Conveys s result ∧ List.Forall₂ Conveys (taken earlier) (received earlier) ∧
        (∀ key label, s.count key label =
          (window earlier ++ ops early).countP (Op.appends key label)) ∧
        ∀ key, s.alarms key = (window earlier ++ ops early).countP (Op.violates key) := by
  intro d
  have orderly : Orderly d := orderly_play orderly_start allowed
  constructor
  · rintro earlier later rfl free
    have before : Orderly (run earlier) := orderly_play orderly_start fun event member =>
      allowed event (List.mem_append_left _ member)
    rcases before.phase with idle | ⟨base, called, -⟩
    · rw [idle.reply, idle.receiving]
      exact ⟨rfl, rfl⟩
    · rw [called.awaiting] at free
      contradiction
  · intro before result after split
    obtain ⟨earlier, early, s, late, rfl, quiet, quiet', conveys, conveyed⟩ :=
      orderly.fresh before result after split
    have since (g : Gauge) : g.shown s = g.tally (window earlier ++ ops early) := by
      have untaken : taken (.asked :: early) = [] := quiet.untaken
      have asked : window (earlier ++ .asked :: early) = window earlier ++ ops early :=
        window_append earlier untaken
      rw [← asked]
      refine orderly.sound.reckoned (earlier ++ .asked :: early) s (late ++ .got result :: after) ?_ g
      rw [split]
      simp
    refine ⟨earlier, early, s, late, rfl, quiet, quiet', conveys, conveyed, ?_, ?_⟩
    · intro key label
      rw [← tally_outcomes]
      exact since (.outcomes key label)
    · intro key
      rw [← tally_violations]
      exact since (.violations key)

def twoCalls : List Event :=
  [.work (.register ⟨0, .transfer⟩), .work (.record ⟨0, .transfer⟩ "commit" .zero false), .ask,
    .respond 0, .work (.record ⟨0, .transfer⟩ "commit" .zero false), .respond 0, .receive,
    .post "\"reset\"", .respond 0, .work (.record ⟨0, .transfer⟩ "commit" .zero true), .ask,
    .respond 0, .respond 0, .receive]

theorem second_of_twoCalls :
    ∃ earlier early s late result,
      (run twoCalls).log = earlier ++ .asked :: (early ++ .took s :: late) ++ [.got result] ∧
      Conveys s result ∧ s.count ⟨0, .transfer⟩ "commit" = 2 ∧
      (window earlier ++ ops early).countP (Op.appends ⟨0, .transfer⟩ "commit") = 2 := by
  have ends : (received (run twoCalls).log.getLast?.toList).isEmpty = false := by decide
  have counts : (taken (run twoCalls).log).map (·.count ⟨0, .transfer⟩ "commit") = [1] ++ [2] := by decide
  rcases List.eq_nil_or_concat (run twoCalls).log with empty | ⟨before, last, split⟩
  · rw [empty] at ends
    contradiction
  · rw [split, List.concat_eq_append, List.getLast?_concat] at ends
    cases last with
    | did | posted | asked | took => contradiction
    | got result =>
        rw [List.concat_eq_append] at split
        obtain ⟨earlier, early, s, late, rfl, quiet, quiet', conveys, -, shown, -⟩ :=
          (replies_are_fresh twoCalls (by decide)).2 before result [] split
        refine ⟨earlier, early, s, late, result, split, conveys, ?_⟩
        have snapshots : taken (run twoCalls).log = taken earlier ++ [s] := by
          have during : taken (early ++ .took s :: late) = [s] := by
            rw [taken_append, quiet.untaken]
            exact congrArg (s :: ·) quiet'.untaken
          rw [split, taken_append, taken_append]
          exact (List.append_nil _).trans (congrArg _ during)
        rw [snapshots, List.map_append] at counts
        have two : s.count ⟨0, .transfer⟩ "commit" = 2 := by
          simpa using (List.append_inj' counts rfl).2
        exact ⟨two, (shown _ _).symm.trans two⟩

end Exchange

end LedgerDrill.Control
