import LedgerDrill.Proofs.Control.Exchange

namespace LedgerDrill.Outcome

variable {s s' : Snapshot}

theorem Snapshot.ofFrame_frame_iff (s : Snapshot) : Snapshot.ofFrame s.frame = .ok s ↔ s.Fits := by
  constructor
  · exact fun read => (s.gives_frame.eq read).1
  · exact s.gives_frame.ok

theorem Snapshot.Fits.frame_inj (fits : s.Fits) (same : s.frame = s'.frame) : s = s' := by
  have read : Snapshot.ofFrame s'.frame = .ok s := same ▸ s.gives_frame.ok fits
  exact (s'.gives_frame.eq read).2

end LedgerDrill.Outcome

namespace LedgerDrill.Control
open Outcome

variable {c : Channel} {registry : Registry} {now : Instant}

namespace Channel

structure Ready (c : Channel) : Prop where
  request : c.request = none
  reply : c.reply = none
  receiving : c.responder = .receiving
  controlled : c.controlled = true

theorem settle_waiting (receiving : c.responder = .receiving) (request : c.request = none)
    (controlled : c.controlled = true) : c.settle registry now = (c, registry) := by
  have waits : c.respond? registry now = none := by
    simp only [respond?, receiving, request, controlled, ↓reduceIte]
  rw [settle]
  split
  · rfl
  · next step => cases waits.symm.trans step

theorem settle_step {c' : Channel} {registry' : Registry} (step : c.respond? registry now = some (c', registry')) :
    c.settle registry now = c'.settle registry' now := by
  rw [settle]
  split
  · next waits => cases waits.symm.trans step
  · next step' =>
      cases step.symm.trans step'
      rfl

theorem Ready.settle_asked (ready : c.Ready) :
    Channel.settle { c with request := some statusFrame } registry now =
      ({ c with reply := some (registry.takeSnapshot now).1.frame }, (registry.takeSnapshot now).2) := by
  obtain ⟨request, reply, responder, controlled⟩ := c
  obtain ⟨rfl, rfl, rfl, rfl⟩ := ready
  have isStatus : Command.decode statusFrame = .ok .status := rfl
  have taken : respond? ⟨some statusFrame, none, .receiving, true⟩ registry now =
      some (⟨none, none, .holding (registry.takeSnapshot now).1.frame, true⟩, (registry.takeSnapshot now).2) := by
    simp only [respond?, receive, isStatus]
  have answered : respond? ⟨none, none, .holding (registry.takeSnapshot now).1.frame, true⟩
      (registry.takeSnapshot now).2 now =
      some (⟨none, some (registry.takeSnapshot now).1.frame, .receiving, true⟩, (registry.takeSnapshot now).2) := rfl
  rw [settle_step taken, settle_step answered]
  exact settle_waiting rfl rfl rfl

theorem Ready.requestStatus (ready : c.Ready) :
    c.requestStatus registry now =
      (c, (registry.takeSnapshot now).2, some (opened (registry.takeSnapshot now).1.frame)) := by
  have sent : c.send? statusFrame = some (.ok { c with request := some statusFrame }) := by
    rw [send?, ready.receiving, ready.request]
    rfl
  have cleared : { c with reply := none } = c := by
    obtain ⟨request, reply, responder, controlled⟩ := c
    obtain ⟨rfl, rfl, rfl, rfl⟩ := ready
    rfl
  have asked : c.sendFrame (Command.encode Command.status.text) registry now =
      ({ c with reply := some (registry.takeSnapshot now).1.frame }, (registry.takeSnapshot now).2, some (.ok ())) := by
    change c.sendFrame statusFrame registry now = _
    simp only [sendFrame, sent, ready.settle_asked]
  simp only [Channel.requestStatus, asked, receive?, cleared]
  rw [settle_waiting ready.receiving ready.request ready.controlled]
  rfl

end Channel

/-- Reading undoes writing for every snapshot whose numbers fit into 64 bits, and only for these. No two of them
share a frame, and over a channel the snapshot comes back that the responder took. -/
theorem snapshots_round_trip :
    (∀ s : Snapshot, Snapshot.ofFrame s.frame = .ok s ↔ s.Fits) ∧
    (∀ s s' : Snapshot, s.Fits → s.frame = s'.frame → s = s') ∧
    ∀ (c : Channel) (registry : Registry) (now : Instant), c.Ready → (registry.takeSnapshot now).1.Fits →
      c.requestStatus registry now =
        (c, (registry.takeSnapshot now).2, some (.ok (registry.takeSnapshot now).1)) := by
  refine ⟨Snapshot.ofFrame_frame_iff, fun _ _ => Snapshot.Fits.frame_inj, fun c registry now ready fits => ?_⟩
  rw [ready.requestStatus, (conveys_opened _).1 fits]

/-- The greatest numbers and lengths of time, and labels with quotes, backslashes and control characters. -/
def hardest : Snapshot :=
  ⟨[{ node := wordBound - 1, kind := .sumTotal, longest := Duration.ofNanos Duration.greatest,
      violations := wordBound - 1,
      outcomes := SortedMap.ofList [("", 0), ("\"\\\x01\n", wordBound - 1), ("π 🏦", 7)] },
    { node := 0, kind := .transfer, running := some (Duration.ofNanos 1) }]⟩

theorem hardest_comes_back :
    hardest.entries.map (·.outcomes.size) = [3, 0] ∧ Snapshot.ofFrame hardest.frame = .ok hardest ∧
    (∀ s, hardest.frame = s.frame → hardest = s) ∧
    let registry := ({} : Registry).register ⟨2, .sumTotal⟩
    ((Channel.serve {}).requestStatus registry 5).2.2 = some (.ok ⟨[{ node := 2, kind := .sumTotal }]⟩) := by
  obtain ⟨reads, tells, returned⟩ := snapshots_round_trip
  have small : ∀ e ∈ hardest.entries, e.node < wordBound ∧ e.violations < wordBound ∧
      ∀ item ∈ e.outcomes.entries, item.2 < wordBound := by decide
  have fits : hardest.Fits := fun e member => ⟨(small e member).1, (small e member).2.1, (small e member).2.2⟩
  have fits' : Snapshot.Fits ⟨[{ node := 2, kind := .sumTotal }]⟩ := by
    intro e member
    obtain rfl := List.mem_singleton.mp member
    exact ⟨by decide, by decide, fun item found => absurd found List.not_mem_nil⟩
  refine ⟨by decide, (reads hardest).mpr fits, fun s same => tells hardest s fits same, ?_⟩
  intro registry
  have taken : (registry.takeSnapshot 5).1 = ⟨[{ node := 2, kind := .sumTotal }]⟩ := rfl
  rw [returned (Channel.serve {}) registry 5 ⟨rfl, rfl, rfl, rfl⟩ (taken ▸ fits'), taken]

end LedgerDrill.Control
