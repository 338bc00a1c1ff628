import LedgerDrill.Proofs.Control.Requests

namespace LedgerDrill.Control
open Outcome

def Event.isBackground : Event → Bool
  | .work _ | .respond _ => true
  | _ => false

theorem Event.isOrderly_of_isBackground {event : Event} (background : event.isBackground = true) :
    event.isOrderly = true := by
  cases event <;> first | rfl | contradiction

theorem Conveys.eq_of_ok {s s' : Snapshot} (conveys : Conveys s (.ok s')) : s' = s := by
  by_cases fits : s.Fits
  · exact Except.ok.inj (conveys.1 fits)
  · obtain ⟨e, impossible⟩ := conveys.2 fits
    contradiction

/-- Between two points of a log the window was shut by a snapshot, and then ended by the snapshot `s`, which
shows just the operations between the two. -/
def Window (start finish : List Note) (s : Snapshot) : Prop :=
  ∃ before cleared inside after,
    finish = start ++ (before ++ .took cleared :: (inside ++ .took s :: after)) ∧
    taken before = [] ∧ taken inside = [] ∧ taken after = [] ∧
    (∀ key label, s.count key label = (ops inside).countP (Op.appends key label)) ∧
    ∀ key, s.alarms key = (ops inside).countP (Op.violates key)

namespace Exchange

variable {d d' : Exchange} {s : Snapshot} {base : List Note}

def Background (d d' : Exchange) : Prop :=
  ∃ events : List Event, (∀ event ∈ events, event.isBackground = true) ∧ d' = d.play events

theorem Background.refl (d : Exchange) : Background d d := ⟨[], fun _ member => absurd member List.not_mem_nil, rfl⟩

theorem Background.trans {d'' : Exchange} (first : Background d d') (second : Background d' d'') :
    Background d d'' := by
  obtain ⟨events, all, rfl⟩ := first
  obtain ⟨events', all', rfl⟩ := second
  refine ⟨events ++ events', ?_, List.foldl_append.symm⟩
  intro event member
  rcases List.mem_append.mp member with member | member
  · exact all event member
  · exact all' event member

theorem Background.awaiting (background : Background d d') : d'.awaiting = d.awaiting := by
  obtain ⟨events, all, rfl⟩ := background
  induction events generalizing d with
  | nil => rfl
  | cons event events ih =>
      obtain ⟨first, others⟩ := List.forall_mem_cons.mp all
      have same : (d.step event).awaiting = d.awaiting := by
        cases event with
        | work op => simp only [Exchange.step]; split <;> rfl
        | respond now => simp only [Exchange.step]; split <;> rfl
        | post | ask | receive | giveUp => contradiction
      exact (ih others).trans same

def Call (d : Exchange) (s : Snapshot) (d' : Exchange) : Prop :=
  ∃ d₁ d₂, Background d d₁ ∧ (d₁.step .ask).awaiting = true ∧ Background (d₁.step .ask) d₂ ∧
    (d₂.step .receive).log = d₂.log ++ [.got (.ok s)] ∧ Background (d₂.step .receive) d'

theorem Background.orderly (background : Background d d') (orderly : Orderly d) : Orderly d' := by
  obtain ⟨events, all, rfl⟩ := background
  exact orderly_play orderly fun event member => Event.isOrderly_of_isBackground (all event member)

theorem Idle.background (idle : Idle d) (orderly : Orderly d) (background : Background d d') :
    Idle d' ∧ ∃ more, d'.log = d.log ++ more ∧ Quiet more := by
  obtain ⟨events, all, rfl⟩ := background
  induction events generalizing d with
  | nil => exact ⟨idle, [], (List.append_nil _).symm, quiet_nil⟩
  | cons event events ih =>
      obtain ⟨first, others⟩ := List.forall_mem_cons.mp all
      have allowed := Event.isOrderly_of_isBackground first
      rcases idle.step orderly.sound allowed with ⟨idle', more, log, quiet⟩ | ⟨rfl, -⟩
      · obtain ⟨idle'', more', log', quiet'⟩ := ih idle' (orderly.step allowed) others
        refine ⟨idle'', more ++ more', ?_, quiet.append quiet'⟩
        rw [← List.append_assoc, ← log]
        exact log'
      · contradiction

theorem Called.background (called : Called base d) (orderly : Orderly d) (background : Background d d') :
    Called base d' := by
  obtain ⟨events, all, rfl⟩ := background
  induction events generalizing d with
  | nil => exact called
  | cons event events ih =>
      obtain ⟨first, others⟩ := List.forall_mem_cons.mp all
      have allowed := Event.isOrderly_of_isBackground first
      rcases called.step orderly.sound allowed with called' | ⟨rfl, -⟩
      · exact ih called' (orderly.step allowed) others
      · contradiction

/-- Exactly one snapshot is taken during a call, and the call returns it. -/
theorem Idle.call (idle : Idle d) (orderly : Orderly d) (call : Call d s d') :
    Idle d' ∧ Orderly d' ∧
      ∃ before after, d'.log = d.log ++ (before ++ .took s :: after) ∧ taken before = [] ∧ taken after = [] := by
  obtain ⟨d₁, d₂, earlier, sends, meanwhile, receives, later⟩ := call
  obtain ⟨idle₁, more₁, log₁, quiet₁⟩ := idle.background orderly earlier
  have orderly₁ := earlier.orderly orderly
  have asks : Event.isOrderly .ask = true := rfl
  have takes : Event.isOrderly .receive = true := rfl
  have asked := orderly₁.step asks
  have called : Called d₁.log (d₁.step .ask) := by
    rcases idle₁.step orderly₁.sound asks with ⟨still, -⟩ | ⟨-, called⟩
    · rw [still.awaiting] at sends
      contradiction
    · exact called
  -- Nothing in the background ends the call, and the reply that ends it is the snapshot taken for it.
  have called₂ := called.background asked meanwhile
  have orderly₂ := meanwhile.orderly asked
  rcases called₂.step orderly₂.sound takes with
    waits | ⟨-, idle₂, early, s', late, log₂, got, quiet, quiet'⟩
  · obtain ⟨more, longer, none⟩ := log_step orderly₂.sound .receive
    have unreceived := none.resolve_right (by rw [waits.awaiting]; decide)
    rw [receives] at longer
    obtain rfl := List.append_cancel_left longer
    contradiction
  · rw [receives] at got
    have same : Except.ok s = opened s'.frame := by simpa using got
    have conveys := conveys_opened s'
    rw [← same] at conveys
    obtain rfl := conveys.eq_of_ok
    have received := orderly₂.step takes
    obtain ⟨idle', more', log', quiet''⟩ := idle₂.background received later
    refine ⟨idle', later.orderly received, more₁ ++ .asked :: early, late ++ .got (.ok s) :: more', ?_, ?_, ?_⟩
    · rw [log', receives, log₂, log₁]
      simp
    · rw [taken_append, quiet₁.untaken]
      exact quiet.untaken
    · rw [taken_append, quiet'.untaken]
      exact quiet''.untaken

theorem Idle.window (idle : Idle d) (orderly : Orderly d) {cleared : Snapshot} {d₁ d₂ : Exchange}
    (first : Call d cleared d₁) (rest : Background d₁ d₂) (second : Call d₂ s d') :
    Idle d' ∧ Orderly d' ∧ Window d.log d'.log s := by
  obtain ⟨idle₁, orderly₁, before, after, log₁, none, none'⟩ := idle.call orderly first
  obtain ⟨idle₂, more, log₂, quiet⟩ := idle₁.background orderly₁ rest
  obtain ⟨idle', orderly', before', after', log', none₂, none₂'⟩ := idle₂.call (rest.orderly orderly₁) second
  let inside := after ++ (more ++ before')
  have untaken : taken inside = [] := by
    rw [taken_append, none', taken_append, quiet.untaken, none₂]
    rfl
  have log : d'.log = (d.log ++ (before ++ [.took cleared]) ++ inside) ++ .took s :: after' := by
    rw [log', log₂, log₁]
    simp [inside]
  have shown (g : Gauge) : g.shown s = g.tally (ops inside) := by
    have reckoned := orderly'.sound.reckoned _ s after' log g
    rwa [window_append _ untaken, ← List.append_assoc, window_took, List.nil_append] at reckoned
  refine ⟨idle', orderly', before, cleared, inside, after', ?_, none, untaken, none₂', ?_, ?_⟩
  · rw [log]
    simp
  · intro key label
    rw [← tally_outcomes]
    exact shown (.outcomes key label)
  · intro key
    rw [← tally_violations]
    exact shown (.violations key)

end Exchange

end LedgerDrill.Control
