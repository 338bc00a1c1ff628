import LedgerDrill.Proofs.Experiment.Attribution
import LedgerDrill.Proofs.Workload.Outage

namespace LedgerDrill
open Control Outcome Workload
open Cluster (Alike Committing CutOff Session Untouched Waiting)

/-! ## Tasks -/

namespace Workload

def Task.AtHome : Task Session Waiting → Prop
  | .statement .. => True
  | .iteration i | .running i _ _ => i.loop.AtHome ∧ i.point.AtHome i.loop
  | .resting loop _ _ => loop.AtHome

/-- Whether an operation records something else than a commit of the transfers on the node. -/
def Spares (node : Nat) (op : Op) : Prop := op.appends ⟨node, .transfer⟩ commit = false

variable {c : Cluster} {l : Loop Session} {node : Nat}

theorem Stayed.spares {turn : LoopTurn Cluster Session Waiting} (stayed : Stayed c l turn)
    (cutOff : CutOff node c) (started now : Instant) :
    ∀ op ∈ endingOps turn.loop.key started now turn.ending, Spares node op := by
  intro op member
  obtain ⟨ending, ended, rfl⟩ := mem_endingOps member
  simp only [Spares, Op.appends, Bool.and_eq_false_iff, decide_eq_false_iff_not]
  by_cases same : turn.loop.key = ⟨node, .transfer⟩
  · obtain ⟨rfl, transfer⟩ := Key.mk.inj (stayed.key.symm.trans same)
    exact Or.inr (stayed.barred transfer cutOff ending ended)
  · exact Or.inl same

theorem atHome_ofIteration {loop : Loop Session} {next : LoopNext Session Waiting}
    (home : loop.AtHome) (there : ∀ wait point, next = .waiting wait point → point.AtHome loop)
    (started : Instant) (task : Task Session Waiting)
    (onward : (Course.ofIteration started loop next).onward? = some task) : task.AtHome := by
  cases next with
  | done => cases onward
  | waiting wait point =>
      cases onward
      exact ⟨home, there _ _ rfl⟩

theorem atHome_ofRun {loop : Loop Session} {next : LoopNext Session Waiting}
    (home : loop.AtHome) (there : ∀ wait point, next = .waiting wait point → point.AtHome loop)
    (flag : Bool) (completed : Nat) (started : Instant) (task : Task Session Waiting)
    (onward : (Course.ofRun flag completed started loop next).onward? = some task) : task.AtHome := by
  cases next with
  | done =>
      cases onward
      exact home
  | waiting wait point =>
      cases onward
      exact ⟨home, there _ _ rfl⟩

theorem Task.AtHome.setFlag {task : Task Session Waiting} (home : task.AtHome) (value : Bool) :
    (task.setFlag value).AtHome := by
  cases task <;> exact home

theorem Task.AtHome.resume {task : Task Session Waiting} (home : task.AtHome) (shared : Shared Cluster)
    (expired : Bool) (random : Nat) (now : Instant) :
    Alike shared.store (shared.resume task expired random now).1.store ∧
    (∀ task', (shared.resume task expired random now).2.onward? = some task' → task'.AtHome) ∧
    ∀ node, CutOff node shared.store → ∀ op ∈ task.ops shared.store expired random now, Spares node op := by
  cases task with
  | statement s w =>
      refine ⟨(Cluster.settled_resume w shared.store s).alike, ?_, fun _ _ _ member => (by cases member)⟩
      intro task' onward
      cases task' with
      | statement => trivial
      | iteration | running | resting =>
          simp only [Shared.resume, Course.ofStatement] at onward
          split at onward <;> cases onward
  | iteration i =>
      have stayed := stayed_resume home.1 home.2 expired random shared.store
      exact ⟨stayed.alike, atHome_ofIteration stayed.home stayed.next i.started,
        fun _ cutOff => stayed.spares cutOff i.started now⟩
  | running i flag completed =>
      have stayed := stayed_resume home.1 home.2 expired random shared.store
      exact ⟨stayed.alike, atHome_ofRun stayed.home stayed.next flag completed i.started,
        fun _ cutOff => stayed.spares cutOff i.started now⟩
  | resting loop flag completed =>
      cases flag with
      | false =>
          have ends : shared.resume (.resting loop false completed) expired random now =
              (shared, .landed (.run completed)) := rfl
          have silent : (Task.resting loop false completed).ops shared.store expired random now = [] := rfl
          rw [ends, silent]
          exact ⟨Cluster.Alike.refl _, fun _ onward => (by cases onward), fun _ _ _ member => (by cases member)⟩
      | true =>
          have stayed := stayed_start home random shared.store
          simp only [Shared.resume, Shared.continueRun, ↓reduceIte, Shared.startIteration, Shared.takeTurn]
          refine ⟨stayed.alike, atHome_ofRun stayed.home stayed.next true completed now, ?_⟩
          intro node cutOff op member
          rcases List.mem_cons.mp member with rfl | member
          · rfl
          · exact stayed.spares cutOff now now op member

end Workload

/-! ## Sites -/

namespace Control.Exchange

variable (d : Exchange)

theorem ops_step (event : Control.Event) :
    ∃ notes, (d.step event).log = d.log ++ notes ∧ ∀ op ∈ ops notes, event = .work op := by
  have quiet (notes : List Note) (none : ops notes = []) (op : Op) (member : op ∈ ops notes) :
      event = .work op := absurd (none ▸ member) List.not_mem_nil
  have unchanged : ∃ notes, d.log = d.log ++ notes ∧ ∀ op ∈ ops notes, event = .work op :=
    ⟨[], (List.append_nil _).symm, quiet [] rfl⟩
  cases event with
  | giveUp => exact unchanged
  | work op =>
      simp only [step]
      split
      · refine ⟨[.did op], rfl, fun op' member => ?_⟩
        rw [List.mem_singleton.mp member]
      · exact unchanged
  | respond now =>
      have silent : ops (d.noted now) = [] := by
        unfold noted
        split
        · split <;> rfl
        · rfl
      simp only [step]
      split
      · exact ⟨d.noted now, rfl, quiet _ silent⟩
      · exact unchanged
  | post frame =>
      simp only [step]
      split
      · exact ⟨[.posted frame], rfl, quiet _ rfl⟩
      · exact unchanged
  | ask =>
      simp only [step]
      split
      · exact unchanged
      · split
        · exact ⟨[.asked], rfl, quiet _ rfl⟩
        · exact unchanged
  | receive =>
      simp only [step]
      split
      · exact unchanged
      · split
        · next result _ _ => exact ⟨[.got result], rfl, quiet _ rfl⟩
        · exact unchanged

theorem ops_play (events : List Control.Event) :
    ∃ notes, (d.play events).log = d.log ++ notes ∧ ∀ op ∈ ops notes, .work op ∈ events := by
  induction events generalizing d with
  | nil => exact ⟨[], (List.append_nil _).symm, fun _ member => absurd member List.not_mem_nil⟩
  | cons event events ih =>
      obtain ⟨notes, log, own⟩ := d.ops_step event
      obtain ⟨notes', log', among⟩ := ih (d.step event)
      refine ⟨notes ++ notes', ?_, ?_⟩
      · rw [← List.append_assoc, ← log]
        exact log'
      · intro op member
        rw [ops_append] at member
        rcases List.mem_append.mp member with member | member
        · exact own op member ▸ List.mem_cons_self
        · exact List.mem_cons_of_mem _ (among op member)

end Control.Exchange

namespace Site

def AtHome (site : Site Cluster Session Waiting) : Prop :=
  ∀ (i : Nat) (task : Task Session Waiting), site.tasks[i]? = some (some task) → task.AtHome

variable {site : Site Cluster Session Waiting} {node : Nat}

structure Passes (node : Nat) (site site' : Site Cluster Session Waiting) : Prop where
  home : site'.AtHome
  store : Untouched node site.store site'.store
  log : ∃ notes, site'.log = site.log ++ notes ∧
    (CutOff node site.store → ∀ op ∈ ops notes, Spares node op)

theorem Passes.trans {site' site'' : Site Cluster Session Waiting} (first : Passes node site site')
    (second : Passes node site' site'') : Passes node site site'' := by
  obtain ⟨-, store, notes, log, spares⟩ := first
  obtain ⟨home, store', notes', log', spares'⟩ := second
  refine ⟨home, store.trans store', notes ++ notes', ?_, fun cutOff op member => ?_⟩
  · rw [log', log, List.append_assoc]
  · rw [ops_append] at member
    rcases List.mem_append.mp member with member | member
    · exact spares cutOff op member
    · exact spares' (cutOff.keep store) op member

theorem Passes.silent {site' : Site Cluster Session Waiting} (home : site'.AtHome)
    (store : Untouched node site.store site'.store) (exchange : site'.exchange = site.exchange) :
    Passes node site site' :=
  ⟨home, store, [], by rw [List.append_nil, Site.log, exchange]; rfl,
    fun _ _ member => absurd member List.not_mem_nil⟩

theorem AtHome.exchange (home : site.AtHome) (node : Nat) (event : Control.Event)
    (spares : ∀ op, event = .work op → Spares node op) :
    Passes node site { site with exchange := site.exchange.step event } := by
  obtain ⟨notes, log, own⟩ := site.exchange.ops_step event
  exact ⟨home, Untouched.refl node _, notes, log, fun _ op member => spares op (own op member)⟩

theorem AtHome.wake (home : site.AtHome) (node : Nat) {i : Nat} {task : Task Session Waiting}
    (found : site.tasks[i]? = some (some task)) (expired : Bool) (random : Nat) (now : Instant) :
    Passes node site (site.wake i task expired random now) := by
  obtain ⟨alike, onward, spares⟩ := (home i task found).resume site.shared expired random now
  obtain ⟨notes, log, among⟩ := site.exchange.ops_play ((task.ops site.store expired random now).map .work)
  refine ⟨All.set home i onward, alike.untouched node, notes, ?_, fun cutOff op member => ?_⟩
  · rw [Site.log, site.exchange_wake]
    exact log
  · obtain ⟨op', inside, same⟩ := List.mem_map.mp (among op member)
    cases same
    exact spares node cutOff op inside

theorem AtHome.step (home : site.AtHome) {h : Happening Cluster}
    (untouched : ∀ f, h = .change f → ∀ c, Untouched node c (f c)) : Passes node site (site.step h) := by
  cases h with
  | change f => exact Passes.silent home (untouched f rfl site.store) rfl
  | respond now => exact home.exchange node (.respond now) fun _ same => by cases same
  | setFlag i value =>
      refine Passes.silent (All.retask home i ?_) (Untouched.refl node _) rfl
      rintro task _ atHome ⟨⟩
      exact atHome.setFlag value
  | abort i =>
      refine Passes.silent (All.retask home i fun _ _ _ dropped => ?_) (Untouched.refl node _) rfl
      cases dropped
  | wake i expired random now =>
      simp only [Site.step]
      split
      · next task found => exact home.wake node found expired random now
      · exact Passes.silent home (Untouched.refl node _) rfl
  | launch onNode body settings =>
      have registers : ∀ op, Control.Event.work (.register ⟨onNode, body.kind⟩) = .work op → Spares node op := by
        rintro _ ⟨⟩
        rfl
      obtain ⟨-, store, log⟩ := home.exchange node _ registers
      refine ⟨All.launch home ?_, store, log⟩
      rintro _ ⟨⟩

theorem AtHome.move (home : site.AtHome) {move : Move Cluster}
    (untouched : ∀ f, move = .happens (.change f) → ∀ c, Untouched node c (f c)) :
    Passes node site (site.move move) := by
  cases move with
  | happens h => exact home.step fun f same => untouched f (congrArg _ same)
  | ask => exact home.exchange node .ask fun _ same => by cases same
  | receive => exact home.exchange node .receive fun _ same => by cases same

theorem AtHome.follow (home : site.AtHome) {moves : List (Move Cluster)}
    (untouched : ∀ f, .happens (.change f) ∈ moves → ∀ c, Untouched node c (f c)) :
    Passes node site (site.follow moves) := by
  refine List.foldlRecOn (motive := Passes node site) moves Site.move
    (Passes.silent home (Untouched.refl node _) rfl) fun site' passes move member => ?_
  refine passes.trans (passes.home.move ?_)
  rintro f rfl
  exact untouched f member

theorem atHome_after (c : Cluster) (past : List (Move Cluster)) :
    (Site.after c past : Site Cluster Session Waiting).AtHome := by
  refine List.foldlRecOn (motive := AtHome) past Site.move (fun i task found => ?_) fun site home move _ => ?_
  · simp at found
  · by_cases changes : ∃ f, move = .happens (.change f)
    · obtain ⟨f, rfl⟩ := changes
      exact home
    · have passes : Passes 0 site (site.move move) := home.move fun f same => absurd ⟨f, same⟩ changes
      exact passes.home

end Site

/-! ## Experiments -/

namespace World

variable {w w' : World Cluster Session Waiting} {scenario : Scenario} {node : Nat}

theorem inject_eq (fault : Option Fault) (w : World Cluster Session Waiting) :
    Scenario.inject fault w =
      ({ w with site := { w.site with store := (Scenario.inject fault w.site.store).1 } },
        (Scenario.inject fault w.site.store).2) := by
  cases fault <;> rfl

theorem start_ok (victim : scenario.unreachable = [node]) (several : 2 ≤ w.site.store.size)
    (member : node < w.site.store.size) :
    ∃ c, scenario.injector.start w = ({ w with site := { w.site with store := c } }, .ok ()) ∧ CutOff node c := by
  obtain ⟨c, injected, cutOff⟩ := Cluster.cutOff_start victim several member
  refine ⟨c, ?_, cutOff⟩
  have started : scenario.injector.start w = Scenario.inject scenario.startFault? w := rfl
  rw [started, inject_eq, injected]

theorem Leads.passes (leads : w.Leads w') (home : w.site.AtHome)
    (untouched : ∀ batch ∈ w.schedule, ∀ f, .change f ∈ batch → ∀ c, Untouched node c (f c)) :
    Site.Passes node w.site w'.site := by
  obtain ⟨⟨moves, site, among⟩, -⟩ := leads
  rw [site]
  refine home.follow fun f member => ?_
  obtain ⟨batch, scheduled, inside⟩ := among _ member
  exact untouched batch scheduled f inside

theorem no_commit {start finish notes : List Note} {s : Snapshot} {bound : Nat} (window : Window start finish s)
    (log : finish = start ++ notes) (spares : ∀ op ∈ ops notes, Spares node op)
    (counted : ∀ s ∈ taken finish, s.Within bound) {e : Entry} (shown : s.transfer? node = some e) :
    e.hasCommits = false := by
  obtain ⟨before, cleared, inside, after, split, -, -, -, counts, -⟩ := window
  have same : notes = before ++ .took cleared :: (inside ++ .took s :: after) :=
    List.append_cancel_left (log.symm.trans split)
  have none : s.count ⟨node, .transfer⟩ commit = 0 := by
    rw [counts, List.countP_eq_zero]
    intro op member
    have among : op ∈ ops notes := by
      rw [same, List.append_cons before, ops_append _ (inside ++ _), ops_append inside]
      exact List.mem_append_right _ (List.mem_append_left _ member)
    rw [spares op among]
    exact Bool.false_ne_true
  have wasTaken : s ∈ taken finish := by
    rw [split, taken_append, List.append_cons before, taken_append _ (inside ++ _), taken_append inside]
    exact List.mem_append_right _ (List.mem_append_right _ (List.mem_append_right _ List.mem_cons_self))
  exact (counted s wasTaken).not_contains none shown

/-- A scenario with a victim, which begins after anything that may have happened before. As long as nobody
else changes the power or the links of the victim, no commit of at least one write is answered with success
there, wherever it was when the failure began, and no transfer of its loops is recorded as committed. So an
experiment that runs to its end without a cancelled call shows no commit of the victim in its first window. -/
theorem victim_never_commits (c : Cluster) (past : List (Move Cluster))
    (schedule : List (List (Happening Cluster))) (scenario : Scenario) (node : Nat)
    (victim : scenario.unreachable = [node]) :
    let w : World Cluster Session Waiting := ⟨Site.after c past, schedule⟩
    2 ≤ w.site.store.size → node < w.site.store.size →
    (∃ broken, scenario.injector.start w = (broken, .ok ()) ∧
      ∀ moves, (∀ f, .happens (.change f) ∈ moves → ∀ c, Untouched node c (f c)) →
        let now := broken.site.follow moves
        (∀ s reply, (Cluster.startStatement .commit now.store s).next ≠ .answered (.ok reply)) ∧
        (∀ s point reply, Committing node s point →
          (Cluster.resumeStatement point now.store s).next ≠ .answered (.ok reply)) ∧
        ∃ notes, now.log = broken.site.log ++ notes ∧ ∀ op ∈ ops notes, Spares node op) ∧
    (w.site.exchange.awaiting = false →
      (∀ batch ∈ schedule, ∀ f, .change f ∈ batch → ∀ c, Untouched node c (f c)) →
      ∀ timings windows w', experiment controls timings scenario.injector w = (.ok windows, w') →
        ∀ e, windows.during.transfer? node = some e → e.hasCommits = false) := by
  intro w several member
  have home : w.site.AtHome := Site.atHome_after c past
  constructor
  · obtain ⟨c', started, cutOff⟩ := start_ok victim several member
    refine ⟨_, started, fun moves untouched => ?_⟩
    have home' : Site.AtHome { w.site with store := c' } := home
    have passes := home'.follow untouched
    obtain ⟨notes, log, spares⟩ := passes.log
    refine ⟨fun s reply done => ?_, fun s point reply committing => ?_, notes, log, spares cutOff⟩
    · rcases Cluster.start_cases .commit ((Site.follow { w.site with store := c' } moves).store) s with
        ⟨_, _, next⟩ | ⟨_, next, -⟩
      · cases next.symm.trans done
      · cases next.symm.trans done
    · exact (cutOff.keep passes.store).refuses committing.carries s reply
  · intro idle untouched timings windows w' done e shown
    obtain ⟨broken, failing, mended, started, first, -, -⟩ := experiment_ok done
    obtain ⟨rests, background⟩ := leads_rest w
    obtain ⟨ready, -⟩ := (ready_after c past idle schedule).background background
    -- While the controller rests the cluster keeps its size, so the failure still finds its victim.
    have warm := rests.passes home untouched
    have untouched' : ∀ batch ∈ w.rest.schedule, ∀ f, .change f ∈ batch → ∀ c, Untouched node c (f c) :=
      fun batch scheduled => untouched batch (rests.2 batch scheduled)
    obtain ⟨c', started', cutOff⟩ := start_ok (w := w.rest) victim (warm.store.size ▸ several)
      (warm.store.size ▸ member)
    cases started.symm.trans started'
    have ready' : Ready { w.rest with site := { w.rest.site with store := c' } } := ⟨ready.orderly, ready.idle⟩
    obtain ⟨after, leads, window⟩ := ready'.window first
    obtain ⟨notes, log, spares⟩ := (leads.passes warm.home untouched').log
    obtain ⟨bound, counted⟩ := after.orderly.counted
    exact no_commit window log (spares cutOff) counted.taken shown

def preparedTransfer : List (Move Cluster) :=
  .happens (.launch 0 (.transfer 4 7) ⟨.zero, .zero⟩) ::
    (List.range 6).map fun random => .happens (.wake 0 false random 10)

/-- An experiment in which this commit goes on after the failure, while another node is stopped too. -/
def lateCommit : List (List (Happening Cluster)) :=
  let answers : List (Happening Cluster) := [.respond 0, .respond 0]
  [[], [], answers, [.change (·.stopNode 1 true), .wake 0 false 6 20], [], answers, [], answers, [], [], answers]

theorem untouched_lateCommit :
    ∀ batch ∈ lateCommit, ∀ f, .change f ∈ batch → ∀ c, Untouched 0 c (f c) := by
  have stops (c : Cluster) : Untouched 0 c (c.stopNode 1 true) := c.untouched_modify (by decide) _
  simpa [lateCommit] using stops

theorem refused_lateCommit :
    let w : World Cluster Session Waiting := ⟨Site.after smallBank preparedTransfer, lateCommit⟩
    let s : Session := { node := 0, epoch := 0, status := .inTransaction }
    let point : Waiting := .applying ⟨0, 1, 0⟩ [⟨1, -7⟩, ⟨2, 7⟩] .done
    ∃ broken windows w' e,
      (Scenario.crash 0).injector.start w = (broken, .ok ()) ∧ Committing 0 s point ∧
      (∀ reply, (Cluster.resumeStatement point broken.site.store s).next ≠ .answered (.ok reply)) ∧
      experiment controls {} (Scenario.crash 0).injector w = (.ok windows, w') ∧
      windows.during.transfer? 0 = some e ∧ e.total = 1 ∧ e.hasCommits = false := by
  intro w s point
  have committing : Committing 0 s point := by
    have begun : Committing 0 s (.preparing ⟨0, 1, 0⟩ [⟨1, -7⟩, ⟨2, 7⟩] .done) :=
      .begun (c := smallBank) (s := { s with writes := [⟨1, -7⟩, ⟨2, 7⟩] }) rfl (by simp) rfl
    exact .resumed (c := smallBank) begun rfl
  obtain ⟨⟨broken, started, refused⟩, windows⟩ := victim_never_commits smallBank preparedTransfer lateCommit
    (.crash 0) 0 rfl (by decide) (by decide)
  have shown : (experiment controls {} (Scenario.crash 0).injector w).1.toOption.any (fun windows =>
      (windows.during.transfer? 0).any fun e => e.total == 1) = true := by decide +kernel
  cases done : experiment controls {} (Scenario.crash 0).injector w with
  | mk result w' =>
      rw [done] at shown
      cases result with
      | error e => exact absurd shown Bool.false_ne_true
      | ok found =>
          have idle : w.site.exchange.awaiting = false := by decide
          have none := windows idle untouched_lateCommit {} found w' done
          change (found.during.transfer? 0).any (·.total == 1) = true at shown
          cases entry : found.during.transfer? 0 with
          | none =>
              rw [entry] at shown
              exact absurd shown Bool.false_ne_true
          | some e =>
              rw [entry] at shown
              exact ⟨broken, found, w', e, started, committing,
                fun reply => (refused [] fun _ none => by cases none).2.1 s point reply committing, rfl, entry,
                beq_iff_eq.mp shown,
                none e entry⟩

end World

end LedgerDrill
