import LedgerDrill.Proofs.Cluster.Scenarios
import LedgerDrill.Proofs.Experiment.Outage
import LedgerDrill.Proofs.Workload.Regular
import LedgerDrill.Suite

namespace LedgerDrill
open Control Outcome Workload
open Cluster (Session Waiting Steady Whole)

/-! ## The scenarios -/

namespace Suite

structure Exercise where
  name : String
  scenario : Scenario
  expectation : Expectation

def Exercise.drill (τ : Type) [FaultTarget τ] (e : Exercise) : Drill τ := drillOf e.name e.scenario e.expectation

def Exercise.normal : Exercise := ⟨"normal_operations", .baseline, .available⟩

def Exercise.edge (a b : Nat) : Exercise := ⟨"edge_partition", .edge a b, .eitherSide a b⟩

def singles (victim : Nat) : List Exercise :=
  [⟨"node_partition", .partition victim, .unreachable [victim]⟩,
    ⟨"node_restart", .restart victim, .unreachable [victim]⟩,
    ⟨"node_crash", .crash victim, .unreachable [victim]⟩]

def exercises (nodes : Nat) : List Exercise :=
  if nodes < 2 then [.normal]
  else if nodes < 3 then .normal :: singles (nodes - 1)
  else .normal :: singles (nodes - 1) ++ [.edge (nodes - 2) (nodes - 1)]

theorem drills_standard (τ : Type) [FaultTarget τ] (nodes : Nat) :
    (standard τ nodes).drills = (exercises nodes).map (Exercise.drill τ) := by
  unfold standard exercises
  split
  · rfl
  · split <;> rfl

variable {nodes node : Nat} {e : Exercise}

theorem nodes_of_single {victim : Nat} (member : e ∈ singles victim) : e.scenario.nodes = [victim] := by
  have all : ∀ e ∈ singles victim, e.scenario.nodes = [victim] := by
    simp [singles, Scenario.nodes]
  exact all e member

theorem mem_exercises (member : e ∈ exercises nodes) :
    e = .normal ∨ 2 ≤ nodes ∧ e ∈ singles (nodes - 1) ∨ 3 ≤ nodes ∧ e = .edge (nodes - 2) (nodes - 1) := by
  unfold exercises at member
  split at member
  · exact Or.inl (List.mem_singleton.mp member)
  · next several =>
      have several := Nat.not_lt.mp several
      split at member
      · exact (List.mem_cons.mp member).imp_right fun single => Or.inl ⟨several, single⟩
      · next many =>
          rcases List.mem_append.mp member with member | member
          · exact (List.mem_cons.mp member).imp_right fun single => Or.inl ⟨several, single⟩
          · exact Or.inr (Or.inr ⟨Nat.not_lt.mp many, List.mem_singleton.mp member⟩)

theorem nodes_of_exercise (member : e ∈ exercises nodes) (broken : node ∈ e.scenario.nodes) :
    0 < node ∧ node < nodes ∧ (node = nodes - 1 ∨ 3 ≤ nodes ∧ e.name = "edge_partition") := by
  rcases mem_exercises member with rfl | ⟨several, single⟩ | ⟨many, rfl⟩
  · cases broken
  · rw [nodes_of_single single, List.mem_singleton] at broken
    omega
  · have ends : node = nodes - 2 ∨ node = nodes - 1 := by simpa [Exercise.edge, Scenario.nodes] using broken
    exact ⟨by omega, by omega, Or.inr ⟨many, rfl⟩⟩

theorem nodup_names (nodes : Nat) : ((exercises nodes).map (·.name)).Nodup := by
  unfold exercises
  split
  · simp
  · split <;> simp [singles, Exercise.normal, Exercise.edge]

section
variable {rest : List Exercise} (plan : e :: rest <:+ exercises nodes)
include plan

theorem spares_first : 0 ∉ e.scenario.nodes := fun broken =>
  Nat.lt_irrefl 0 (nodes_of_exercise (plan.subset List.mem_cons_self) broken).1

theorem spares_others (early : 3 ≤ nodes → ∃ e ∈ rest, e.name = "edge_partition") (other : node ≠ nodes - 1) :
    node ∉ e.scenario.nodes := by
  intro broken
  rcases (nodes_of_exercise (plan.subset List.mem_cons_self) broken).2.2 with victim | ⟨many, name⟩
  · exact other victim
  · obtain ⟨later, member, sameName⟩ := early many
    have distinct := (nodup_names nodes).sublist (plan.sublist.map _)
    have apart := (List.nodup_cons.mp distinct).1
    exact apart (List.mem_map.mpr ⟨later, member, sameName.trans name.symm⟩)

end

end Suite

namespace Cluster

/-- All nodes are up, linked and fresh, and have the accounts `0` to `m`. -/
structure Intact (m : Nat) (c : Cluster) : Prop where
  up : ∀ r ∈ c.replicas, r.up = true
  cuts : c.links.cuts = []
  fresh : ∀ r ∈ c.replicas, r.stale = false
  rows : ∀ r ∈ c.replicas, ∀ uid ≤ m, r.accounts.contains uid = true

variable {m node epoch : Nat} {c : Cluster}

theorem Intact.whole (intact : c.Intact m) : c.Whole where
  up _ bound := holds_eq_true.mpr
    ⟨_, List.getElem?_eq_getElem bound, intact.up _ (List.getElem_mem bound)⟩
  cuts := intact.cuts

theorem Intact.isFresh (intact : c.Intact m) (bound : node < c.size) : c.isFresh node = true :=
  isFresh_eq_true.mpr ⟨_, List.getElem?_eq_getElem bound, intact.fresh _ (List.getElem_mem bound)⟩

theorem whole_new (settings : Settings) : (Cluster.new settings).Whole where
  up node bound := holds_eq_true.mpr ⟨{}, List.getElem?_replicate_of_lt (by simpa [size, new] using bound), rfl⟩
  cuts := rfl

theorem intact_of_created {settings : Settings}
    (created : (Cluster.new settings).createAccounts node epoch m = .ok c) : c.Intact m := by
  obtain ⟨served, step, -, rfl⟩ := createAccounts_eq_ok created
  have bound : node < (Cluster.new settings).size := lt_size (up_of_isOpen (serve_eq_ok step).1)
  have empty {index : Nat} {r : Replica} (found : (Cluster.new settings).replicas[index]? = some r) : r = {} :=
    List.eq_of_mem_replicate (List.mem_of_getElem? found)
  have fresh : (Cluster.new settings).isFresh node = true :=
    isFresh_eq_true.mpr ⟨_, List.getElem?_eq_getElem bound, by rw [empty (List.getElem?_eq_getElem bound)]⟩
  obtain rfl : Cluster.new settings = served := by
    have refreshed := (serve_eq_ok step).2
    rw [refresh_of_fresh fresh] at refreshed
    exact Except.ok.inj refreshed
  have seeded : ∀ r ∈ ((Cluster.new settings).replicate node fun _ => .seed m).replicas,
      r = { accounts := .seed m } := by
    intro r member
    obtain ⟨index, found⟩ := List.mem_iff_getElem?.mp member
    simp only [replicate, List.getElem?_mapIdx] at found
    obtain ⟨old, before, rfl⟩ := Option.map_eq_some_iff.mp found
    have reached := (whole_new settings).connected.mem_reachable bound (List.getElem?_eq_some_iff.mp before).1
    rw [empty before, if_pos (by simpa using reached)]
  refine ⟨fun r member => ?_, rfl, fun r member => ?_, fun r member uid row => ?_⟩ <;> rw [seeded r member]
  rw [Accounts.contains_seed]
  exact decide_eq_true row

end Cluster

/-! ## Loops on the cluster -/

namespace Site
open Suite (Exercise exercises)

variable {site : Site Cluster Session Waiting} {rows : Nat → Prop}

theorem waiting_of_onward? {course : Course Session Waiting} {task : Task Session Waiting}
    (onward : course.onward? = some task) : ∃ wait, course = .waiting wait task := by
  cases course with
  | landed => cases onward
  | waiting wait next => cases onward; exact ⟨wait, rfl⟩

theorem steady_step (regular : site.All (Task.Regular fun _ => True)) {h : Happening Cluster}
    (own : ∀ f, h ≠ .change f) :
    Steady site.store (site.step h).store ∧ (site.step h).All (Task.Regular fun _ => True) := by
  cases h with
  | change f => exact absurd rfl (own f)
  | respond now => exact ⟨Steady.refl _, regular⟩
  | setFlag i value =>
      refine ⟨Steady.refl _, regular.retask i ?_⟩
      rintro task _ known ⟨⟩
      exact known.setFlag value
  | abort i => exact ⟨Steady.refl _, regular.retask i fun _ _ _ dropped => by cases dropped⟩
  | launch node body settings =>
      refine ⟨Steady.refl _, regular.launch ⟨nofun, ?_⟩⟩
      cases body with
      | transfer => exact fun _ => ⟨trivial, trivial⟩
      | sumTotal => trivial
  | wake i expired random now =>
      simp only [Site.step]
      split
      · next task found =>
          obtain ⟨steady, goesOn⟩ := (regular i task found).resume site.shared expired random now
          refine ⟨steady, regular.set i fun next onward => ?_⟩
          obtain ⟨wait, course⟩ := waiting_of_onward? onward
          exact (goesOn wait next course).1
      · exact ⟨Steady.refl _, regular⟩

theorem steady_move (regular : site.All (Task.Regular fun _ => True)) {move : Move Cluster}
    (own : ∀ f, move ≠ .happens (.change f)) :
    Steady site.store (site.move move).store ∧ (site.move move).All (Task.Regular fun _ => True) := by
  cases move with
  | happens h => exact steady_step regular fun f same => own f (congrArg _ same)
  | ask | receive => exact ⟨Steady.refl _, regular⟩

/-! ## The suite under way -/

def Broken : Option Exercise → Cluster → Prop
  | none, c => c.Whole
  | some e, c => ∃ whole : Cluster, whole.Whole ∧ Cluster.Alike (Scenario.inject e.scenario.startFault? whole).1 c

structure Safe (nodes m : Nat) (rest : List Exercise) (running : Option Exercise)
    (site : Site Cluster Session Waiting) : Prop where
  size : site.store.size = nodes
  plan : running.toList ++ rest <:+ exercises nodes
  broken : Broken running site.store
  first : site.store.isFresh 0 = true
  others : (3 ≤ nodes → ∃ e ∈ rest, e.name = "edge_partition") →
    ∀ node < nodes, node ≠ nodes - 1 → site.store.isFresh node = true
  rowed : site.store.Rowed (· ≤ m)
  tasks : site.All (Task.Regular fun _ => True)

variable {nodes m node : Nat} {rest : List Exercise} {running : Option Exercise} {e : Exercise}

theorem Safe.known (safe : Safe nodes m rest (some e) site) {whole : Cluster}
    (alike : Cluster.Alike (Scenario.inject e.scenario.startFault? whole).1 site.store) :
    ∀ node ∈ e.scenario.nodes, node < whole.size := by
  intro node broken
  have size : site.store.size = whole.size := alike.size.trans (Cluster.size_scenario _ _)
  rw [← size, safe.size]
  exact (Suite.nodes_of_exercise (safe.plan.subset List.mem_cons_self) broken).2.1

theorem Safe.central (safe : Safe nodes m rest running site) (fresh : site.store.isFresh node = true)
    (apart : ∀ e, running = some e → node ∉ e.scenario.nodes) : Cluster.Central site.store node := by
  have bound := Cluster.lt_size fresh
  cases running with
  | none =>
      have whole : site.store.Whole := safe.broken
      exact whole.connected.central bound
  | some e =>
      obtain ⟨whole, isWhole, alike⟩ := safe.broken
      have size : site.store.size = whole.size := alike.size.trans (Cluster.size_scenario _ _)
      exact (isWhole.central (safe.known alike) (size ▸ bound) (apart e rfl)).alike alike

theorem Safe.moved {site' : Site Cluster Session Waiting} (safe : Safe nodes m rest running site)
    (steady : Steady site.store site'.store) (tasks : site'.All (Task.Regular fun _ => True)) :
    Safe nodes m rest running site' where
  size := steady.served.alike.size.trans safe.size
  plan := safe.plan
  broken := by
    have broken := safe.broken
    cases running with
    | none => exact Whole.alike broken steady.served.alike
    | some e =>
        obtain ⟨whole, isWhole, alike⟩ := broken
        exact ⟨whole, isWhole, alike.trans steady.served.alike⟩
  first := by
    refine steady.served.fresh 0 (safe.central safe.first ?_) safe.first
    rintro e rfl
    exact Suite.spares_first safe.plan
  others early node bound other := by
    have fresh := safe.others early node bound other
    refine steady.served.fresh node (safe.central fresh ?_) fresh
    rintro e rfl
    exact Suite.spares_others safe.plan early other
  rowed := steady.rowed _ safe.rowed
  tasks := tasks

theorem Safe.started (safe : Safe nodes m (e :: rest) none site) :
    Safe nodes m rest (some e)
      { site with store := (Scenario.inject e.scenario.startFault? site.store).1 } where
  size := (Cluster.size_scenario _ _).trans safe.size
  plan := safe.plan
  broken := ⟨site.store, safe.broken, Cluster.Alike.refl _⟩
  first := Cluster.isFresh_start safe.first (Suite.spares_first safe.plan)
  others early node bound other := by
    have early' : 3 ≤ nodes → ∃ e' ∈ e :: rest, e'.name = "edge_partition" := fun many => by
      obtain ⟨e', member, name⟩ := early many
      exact ⟨e', List.mem_cons_of_mem _ member, name⟩
    exact Cluster.isFresh_start (safe.others early' node bound other) (Suite.spares_others safe.plan early other)
  rowed := Cluster.rowed_scenario safe.rowed _
  tasks := safe.tasks

theorem Safe.stopped (safe : Safe nodes m rest (some e) site) :
    Safe nodes m rest none { site with store := (Scenario.inject e.scenario.stopFault? site.store).1 } where
  size := (Cluster.size_scenario _ _).trans safe.size
  plan := (List.suffix_cons e rest).trans safe.plan
  broken := by
    obtain ⟨whole, isWhole, alike⟩ := safe.broken
    exact isWhole.mended (safe.known alike) alike
  first := Cluster.isFresh_stop safe.first
  others early node bound other := Cluster.isFresh_stop (safe.others early node bound other)
  rowed := Cluster.rowed_scenario safe.rowed _
  tasks := safe.tasks

/-- Running the standard drills one after the other from a cluster on, with the drills that are still to come and
the one under way. All the time loops are launched, go on and are aborted, and the controller makes its calls;
nobody else touches the cluster. -/
inductive Underway (c : Cluster) :
    List (Drill Cluster) → Option (Drill Cluster) → Site Cluster Session Waiting → Prop
  | begin : Underway c (Suite.standard Cluster c.size).drills none { store := c }
  | move {rest : List (Drill Cluster)} {running : Option (Drill Cluster)} {site : Site Cluster Session Waiting}
      {move : Move Cluster} (before : Underway c rest running site) (own : ∀ f, move ≠ .happens (.change f)) :
      Underway c rest running (site.move move)
  | start {drill : Drill Cluster} {rest : List (Drill Cluster)} {site : Site Cluster Session Waiting}
      (before : Underway c (drill :: rest) none site) :
      Underway c rest (some drill) { site with store := (drill.injector.start site.store).1 }
  | stop {drill : Drill Cluster} {rest : List (Drill Cluster)} {site : Site Cluster Session Waiting}
      (before : Underway c rest (some drill) site) :
      Underway c rest none { site with store := (drill.injector.stop site.store).1 }

variable {c : Cluster} {drills : List (Drill Cluster)} {drill? : Option (Drill Cluster)}

theorem Underway.follow (before : Underway c drills drill? site) {moves : List (Move Cluster)}
    (own : ∀ f, .happens (.change f) ∉ moves) : Underway c drills drill? (site.follow moves) := by
  refine List.foldlRecOn (motive := Underway c drills drill?) moves Site.move before fun _ before move member => ?_
  refine before.move ?_
  rintro f rfl
  exact own f member

theorem safe_begin (some : 1 ≤ c.size) (intact : c.Intact m) :
    Safe c.size m (exercises c.size) none { store := c } where
  size := rfl
  plan := List.suffix_refl _
  broken := intact.whole
  first := intact.isFresh some
  others _ node bound _ := intact.isFresh bound
  rowed r member _ := intact.rows r member
  tasks i task found := by simp at found

theorem safe_underway (some : 1 ≤ c.size) (intact : c.Intact m) (underway : Underway c drills drill? site) :
    ∃ rest running, drills = rest.map (Exercise.drill Cluster) ∧ drill? = running.map (Exercise.drill Cluster) ∧
      Safe c.size m rest running site := by
  induction underway with
  | begin => exact ⟨_, none, Suite.drills_standard Cluster c.size, rfl, safe_begin some intact⟩
  | move before own ih =>
      obtain ⟨rest, running, planned, started, safe⟩ := ih
      obtain ⟨steady, tasks⟩ := steady_move safe.tasks own
      exact ⟨rest, running, planned, started, safe.moved steady tasks⟩
  | start before ih =>
      obtain ⟨rest, running, planned, started, safe⟩ := ih
      obtain ⟨e, later, rfl, rfl, rfl⟩ := List.map_eq_cons_iff.mp planned.symm
      cases running with
      | some => cases started
      | none => exact ⟨later, .some e, rfl, rfl, safe.started⟩
  | stop before ih =>
      obtain ⟨rest, running, planned, started, safe⟩ := ih
      obtain ⟨e, rfl, rfl⟩ := Option.map_eq_some_iff.mp started.symm
      exact ⟨rest, none, planned, rfl, safe.stopped⟩

theorem Safe.serves (safe : Safe nodes m rest none site) (bound : node < nodes) :
    ∃ s : Session, (Store.accept site.store node).2 = .ok s ∧ s.node = node ∧
      ∀ updates random, (∀ update ∈ updates, update.uid ≤ m) →
        (runAllAlone random (Cluster.transaction updates) ⟨site.store, s, .ok .done, 0⟩).answer = .ok .done := by
  have whole : site.store.Whole := safe.broken
  obtain ⟨s, accepted, here, idle, online⟩ :=
    whole.connected.accept (Cluster.alive_of_fresh safe.first) (safe.size.symm ▸ bound)
  refine ⟨s, accepted, here, fun updates random known => ?_⟩
  refine online.transaction (idle ▸ nofun) (fun r member fresh uid row => ?_) random
  obtain ⟨update, inside, rfl⟩ := row
  exact safe.rowed r member fresh _ (known update inside)

end Site

/-! ## The suite in a world -/

namespace World
open Suite (Exercise exercises)

variable {α β : Type} {x : Action (World Cluster Session Waiting) α}
variable {f : α → Action (World Cluster Session Waiting) β} {pre post last any : World Cluster Session Waiting → Prop}

def Ensures (x : Action (World Cluster Session Waiting) α) (pre post any : World Cluster Session Waiting → Prop) :
    Prop :=
  ∀ w, pre w → (∀ a w', x w = (.ok a, w') → post w') ∧ ∀ e w', x w = (.error e, w') → any w'

theorem Ensures.bind (first : Ensures x pre post any) (second : ∀ a, Ensures (f a) post last any) :
    Ensures (x >>= f) pre last any := by
  intro w known
  obtain ⟨done, failed⟩ := first w known
  rw [Action.bind_eq]
  cases acted : x w with
  | mk result w₁ =>
      cases result with
      | ok a => exact second a w₁ (done a w₁ acted)
      | error e =>
          refine ⟨fun _ _ same => (by cases same), ?_⟩
          rintro _ _ ⟨⟩
          exact failed e w₁ acted

theorem ensures_pure (a : α) : Ensures (pure a) pre pre any := by
  refine fun w known => ⟨?_, fun _ _ same => (by cases same)⟩
  rintro _ _ ⟨⟩
  exact known

theorem leads_awaitReply (site : Site Cluster Session Waiting) (schedule : List (List (Happening Cluster))) :
    Leads ⟨site, schedule⟩ (awaitReply site schedule).2 := by
  induction schedule generalizing site with
  | nil => exact Leads.refl _
  | cons batch later ih =>
      have played := leads_play site batch later
      rw [awaitReply]
      split
      · exact played.trans (leads_move _ .receive later fun _ same => by cases same)
      · exact played.trans (ih _)

theorem leads_demand (site : Site Cluster Session Waiting) (schedule : List (List (Happening Cluster))) :
    Leads ⟨site, schedule⟩ (demand site schedule).2 := by
  induction schedule generalizing site with
  | nil => exact Leads.refl _
  | cons batch later ih =>
      have played := leads_play site batch later
      rw [demand]
      split
      · have asked := leads_move (site.play batch) .ask later fun _ same => by cases same
        exact (played.trans asked).trans (leads_awaitReply _ later)
      · exact played
      · exact played.trans (ih _)

structure At (c : Cluster) (rest : List Exercise) (running : Option Exercise) (w : World Cluster Session Waiting) :
    Prop where
  site : Site.Underway c (rest.map (Exercise.drill Cluster)) (running.map (Exercise.drill Cluster)) w.site
  own : ∀ batch ∈ w.schedule, ∀ f, .change f ∉ batch

variable {c : Cluster} {rest : List Exercise} {running : Option Exercise} {e : Exercise}
variable {w w' : World Cluster Session Waiting}

theorem At.leads (here : At c rest running w) (leads : w.Leads w') : At c rest running w' := by
  obtain ⟨⟨moves, site, among⟩, later⟩ := leads
  refine ⟨?_, fun batch scheduled => here.own batch (later batch scheduled)⟩
  rw [site]
  refine here.site.follow fun f member => ?_
  obtain ⟨batch, scheduled, inside⟩ := among _ member
  exact here.own batch scheduled f inside

def Somewhere (c : Cluster) (w : World Cluster Session Waiting) : Prop := ∃ rest running, At c rest running w

theorem ensures_leads (leads : ∀ w : World Cluster Session Waiting, w.Leads (x w).2) :
    Ensures x (At c rest running) (At c rest running) (Somewhere c) := by
  intro w here
  have there := here.leads (leads w)
  refine ⟨fun a w' same => ?_, fun e w' same => ⟨rest, running, ?_⟩⟩ <;>
    rw [same] at there <;> exact there

theorem ensures_pause (length : Duration) :
    Ensures (controls.pause length) (At c rest running) (At c rest running) (Somewhere c) :=
  ensures_leads fun w => (leads_rest w).1

theorem ensures_collect : Ensures controls.collect (At c rest running) (At c rest running) (Somewhere c) :=
  ensures_leads fun w => leads_demand w.site w.schedule

theorem ensures_window (length : Duration) :
    Ensures (controls.window length) (At c rest running) (At c rest running) (Somewhere c) :=
  ensures_collect.bind fun _ => (ensures_pause length).bind fun _ => ensures_collect

theorem ensures_inject {fault : Option Fault}
    (injected : ∀ w, pre w → post { w with site := { w.site with store := (Scenario.inject fault w.site.store).1 } })
    (weaker : ∀ w, post w → any w) : Ensures (Action.of (Scenario.inject fault)) pre post any := by
  intro w known
  have acted : Action.of (Scenario.inject fault) w = ((Scenario.inject fault w.site.store).2,
      { w with site := { w.site with store := (Scenario.inject fault w.site.store).1 } }) := by
    rw [Action.of, inject_eq]
  have there := injected w known
  rw [acted]
  refine ⟨fun a w' same => ?_, fun e w' same => weaker w' ?_⟩ <;>
    · rw [← (Prod.mk.inj same).2]
      exact there

theorem ensures_start : Ensures (Action.of (e.drill (World Cluster Session Waiting)).injector.start)
    (At c (e :: rest) none) (At c rest (some e)) (Somewhere c) :=
  ensures_inject (fun _ here => ⟨here.site.start, here.own⟩) fun _ there => ⟨_, _, there⟩

theorem ensures_stop : Ensures (Action.of (e.drill (World Cluster Session Waiting)).injector.stop)
    (At c rest (some e)) (At c rest none) (Somewhere c) :=
  ensures_inject (fun _ here => ⟨here.site.stop, here.own⟩) fun _ there => ⟨_, _, there⟩

theorem ensures_drill (timings : Timings) (nodes : Nat) :
    Ensures (Suite.runDrill controls timings nodes (e.drill (World Cluster Session Waiting)))
      (At c (e :: rest) none) (At c rest none) (Somewhere c) := by
  have performed : Ensures (experiment controls timings (e.drill (World Cluster Session Waiting)).injector)
      (At c (e :: rest) none) (At c rest none) (Somewhere c) :=
    (ensures_pause _).bind fun _ => ensures_start.bind fun _ => (ensures_window _).bind fun _ =>
      ensures_stop.bind fun _ => (ensures_window _).bind fun _ => ensures_pure _
  exact performed.bind fun _ => ensures_pure _

theorem ensures_drills (timings : Timings) (nodes : Nat) (first : Bool) (rest : List Exercise) :
    Ensures (Suite.runDrills controls timings nodes first (rest.map (Exercise.drill (World Cluster Session Waiting))))
      (At c rest none) (At c [] none) (Somewhere c) := by
  induction rest generalizing first with
  | nil => exact ensures_pure _
  | cons e rest ih =>
      cases first with
      | true => exact (ensures_drill timings nodes).bind fun _ => (ih false).bind fun _ => ensures_pure _
      | false =>
          exact (ensures_pause _).bind fun _ => (ensures_drill timings nodes).bind fun _ =>
            (ih false).bind fun _ => ensures_pure _

/-- The standard drills one after the other on a cluster where nothing is broken at first and every node has the
accounts, with loops and calls all the time. At every step some replica is fresh, and until the last drill all
but the victim are. Before the first drill, between two of them and after the last all nodes are up and linked,
and a transaction on rows that are there commits on every node if it is left alone. And the suite comes along
just these sites, as far as its controls let it come. -/
theorem standard_never_wedges (c : Cluster) (m : Nat) (some : 1 ≤ c.size) (intact : c.Intact m) :
    (∀ drills running site, Site.Underway c drills running site →
      site.store.Alive ∧
      ((3 ≤ c.size → ∃ drill ∈ drills, drill.name = "edge_partition") →
        ∀ node < c.size, node ≠ c.size - 1 → site.store.isFresh node = true) ∧
      (running = none →
        (∀ node < c.size, site.store.holds node (·.up) = true) ∧ site.store.links.cuts = [] ∧
        ∀ node < c.size, ∃ s : Session, (Store.accept site.store node).2 = .ok s ∧ s.node = node ∧
          ∀ updates random, (∀ update ∈ updates, update.uid ≤ m) →
            (runAllAlone random (Cluster.transaction updates) ⟨site.store, s, .ok .done, 0⟩).answer =
              .ok .done)) ∧
    ∀ timings schedule result w, (∀ batch ∈ schedule, ∀ f, .change f ∉ batch) →
      Suite.runDrills controls timings c.size true (Suite.standard (World Cluster Session Waiting) c.size).drills
        ⟨{ store := c }, schedule⟩ = (result, w) →
      ∃ drills running, Site.Underway c drills running w.site ∧
        (result.isOk = true → drills = [] ∧ running = none) := by
  constructor
  · intro drills running site underway
    obtain ⟨rest, exercise, rfl, rfl, safe⟩ := Site.safe_underway some intact underway
    refine ⟨Cluster.alive_of_fresh safe.first, fun early => safe.others fun many => ?_, fun between => ?_⟩
    · obtain ⟨drill, member, name⟩ := early many
      obtain ⟨e, inside, rfl⟩ := List.mem_map.mp member
      exact ⟨e, inside, name⟩
    · obtain rfl := Option.map_eq_none_iff.mp between
      have whole : site.store.Whole := safe.broken
      exact ⟨safe.size ▸ whole.up, whole.cuts, fun node bound => safe.serves bound⟩
  · intro timings schedule result w own ran
    rw [Suite.drills_standard] at ran
    have begun : At c (exercises c.size) none ⟨{ store := c }, schedule⟩ :=
      ⟨Suite.drills_standard Cluster c.size ▸ .begin, own⟩
    obtain ⟨done, failed⟩ := ensures_drills timings c.size true (exercises c.size) _ begun
    cases result with
    | ok reports => exact ⟨[], none, (done reports w ran).site, fun _ => ⟨rfl, rfl⟩⟩
    | error e =>
        obtain ⟨rest, running, there⟩ := failed e w ran
        exact ⟨_, _, there.site, fun ok => by cases ok⟩

def firstTransfer : List (Move Cluster) :=
  .happens (.launch 0 (.transfer 4 7) ⟨.zero, .zero⟩) ::
    (List.range 8).map fun random => .happens (.wake 0 false random 10)

theorem own_firstTransfer (f : Cluster → Cluster) : .happens (.change f) ∉ firstTransfer := by
  simp [firstTransfer]

theorem underway_firstTransfer :
    ∃ drills running site, Site.Underway smallBank drills running site ∧ running = none ∧
      (∃ drill ∈ drills, drill.name = "edge_partition") ∧ site.store.isFresh 2 = false := by
  have normal := Site.Underway.begin (c := smallBank) |>.start |>.stop
  have partition := normal.start.stop
  have restart := partition.start.stop
  have crash := (restart.start.follow own_firstTransfer).stop
  exact ⟨_, _, _, crash, rfl, by decide, by decide +kernel⟩

def quietSuite : World Cluster Session Waiting :=
  ⟨{ store := smallBank }, List.replicate 60 [.respond 0, .respond 0]⟩

theorem serves_after_crash :
    (∃ drills site, Site.Underway smallBank drills none site ∧ site.store.isFresh 1 = true ∧
      site.store.isFresh 2 = false ∧
      ∃ s : Session, (Store.accept site.store 2).2 = .ok s ∧
        (runAllAlone 0 (Cluster.transaction [⟨1, -7⟩, ⟨2, 7⟩]) ⟨site.store, s, .ok .done, 0⟩).answer = .ok .done) ∧
    ∃ reports w,
      Suite.runDrills controls {} 3 true (Suite.standard (World Cluster Session Waiting) 3).drills quietSuite =
        (.ok reports, w) ∧ Site.Underway smallBank [] none w.site := by
  have created : (Cluster.new {}).createAccounts 0 0 4 = .ok smallBank := by rfl
  obtain ⟨sites, suite⟩ := standard_never_wedges smallBank 4 (by decide) (Cluster.intact_of_created created)
  constructor
  · obtain ⟨drills, _, site, underway, rfl, edge, stale⟩ := underway_firstTransfer
    obtain ⟨-, others, calm⟩ := sites drills none site underway
    obtain ⟨-, -, serves⟩ := calm rfl
    obtain ⟨s, accepted, -, commits⟩ := serves 2 (by decide)
    exact ⟨drills, site, underway, others (fun _ => edge) 1 (by decide) (by decide), stale, s, accepted,
      commits [⟨1, -7⟩, ⟨2, 7⟩] 0 (by decide)⟩
  · have own : ∀ batch ∈ quietSuite.schedule, ∀ f, .change f ∉ batch := by
      simp [quietSuite]
    have ends : (Suite.runDrills controls {} 3 true (Suite.standard (World Cluster Session Waiting) 3).drills
        quietSuite).1.isOk = true := by decide +kernel
    cases ran : Suite.runDrills controls {} 3 true (Suite.standard (World Cluster Session Waiting) 3).drills
        quietSuite with
    | mk result w =>
        obtain ⟨drills, running, underway, complete⟩ := suite {} quietSuite.schedule result w own ran
        rw [ran] at ends
        obtain ⟨rfl, rfl⟩ := complete ends
        cases result with
        | error e => cases ends
        | ok reports => exact ⟨reports, w, rfl, underway⟩

end World

end LedgerDrill
