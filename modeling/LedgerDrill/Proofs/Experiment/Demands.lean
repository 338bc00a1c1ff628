import LedgerDrill.Proofs.Experiment.Standard
import LedgerDrill.Proofs.Experiment.Verdicts

namespace LedgerDrill
open Outcome (Snapshot)
open Workload (Body)
open Cluster (Session Traffic Served)

/-! ## Nodes that can commit -/

namespace Cluster

variable {c c' : Cluster} {s : Session} {node m : Nat} {scenario : Scenario}

/-- A new session on the node commits a transfer that nothing disturbs, if its accounts are there. -/
def CanCommit (c : Cluster) (node : Nat) : Prop :=
  ∃ s : Session, (Store.accept c node).2 = .ok s ∧ ∀ accounts amount random, 3 ≤ accounts →
    c.Rowed (· < accounts) → ((Body.transfer accounts amount).runAlone random c s).2.1 = .ok false

theorem Online.transfer (online : Online c s) (able : s.status ≠ .inError) {accounts : Nat}
    (several : 3 ≤ accounts) (rowed : c.Rowed (· < accounts)) (amount : Int) (random : Nat) :
    ((Body.transfer accounts amount).runAlone random c s).2.1 = .ok false := by
  have drawn : Body.drawSource accounts random + 1 < accounts := by
    have below := Nat.mod_lt random (Nat.sub_pos_of_lt several)
    rw [Body.drawSource]
    omega
  have done : (Workload.runAllAlone random (Workload.transferStatements (Body.drawSource accounts random) amount)
      ⟨c, s, .ok .done, 0⟩).answer = .ok .done := by
    let updates : List Cluster.Write := [⟨Body.drawSource accounts random, -amount⟩,
      ⟨Body.drawSource accounts random + 1, amount⟩]
    have drawnRows : c.Rowed fun uid => ∃ update ∈ updates, update.uid = uid := by
      rintro r member fresh _ ⟨update, among, rfl⟩
      refine rowed r member fresh _ ?_
      rcases List.mem_pair.mp among with rfl | rfl
      · exact Nat.lt_of_succ_lt drawn
      · exact drawn
    exact online.transaction able drawnRows random
  rw [Body.runAlone, Body.plan, if_neg (Nat.not_lt.mpr several)]
  simp only [done, Body.conclude]

theorem Supplied.canCommit (supplied : c.Supplied node) (up : c.holds node (·.up) = true)
    (quorum : c.hasQuorum node = true) : c.CanCommit node := by
  obtain ⟨s, accepted, -, idle, online⟩ := supplied.accept up quorum
  exact ⟨s, accepted, fun accounts amount random several rowed =>
    online.transfer (idle ▸ nofun) several rowed amount random⟩

theorem mem_nodes_of_pivot {pivot : Nat} (isPivot : pivot ∈ scenario.pivot?) : pivot ∈ scenario.nodes := by
  cases scenario <;> cases isPivot <;> simp [Scenario.nodes]

theorem Whole.canCommit (whole : c.Whole) (known : ∀ node ∈ scenario.nodes, node < c.size)
    (several : scenario.pivot? = none ∨ 3 ≤ c.size) (spared : 0 ∉ scenario.nodes) (fresh : c.isFresh 0 = true)
    (served : Served (Scenario.inject scenario.startFault? c).1 c') (bound : node < c.size)
    (apart : node ∉ scenario.pivot?) : c'.CanCommit node := by
  have reaches {peer : Nat} (bound' : peer < c.size) (apart' : peer ∉ scenario.pivot?) :
      peer ∈ c'.reachable node := by
    rw [served.alike.reachable]
    exact whole.reaches known bound' apart apart'
  have size : c'.size = c.size := served.alike.size.trans (size_scenario _ c)
  have up : c'.holds node (·.up) = true := (mem_reachable.mp (reaches bound apart)).1
  have first : 0 < c.size := Nat.zero_lt_of_lt bound
  have fresh' : c'.isFresh 0 = true := served.fresh 0 (whole.central known first spared) (isFresh_start fresh spared)
  have spared' : 0 ∉ scenario.pivot? := fun isPivot => spared (mem_nodes_of_pivot isPivot)
  have supplied : c'.Supplied node := ⟨0, reaches first spared', fresh'⟩
  refine supplied.canCommit up ?_
  rcases several with none | several
  · refine hasQuorum_of_all (fun peer inside => reaches (size ▸ inside) ?_) (size.symm ▸ first)
    rw [none]
    exact nofun
  · obtain ⟨pivot, all⟩ : ∃ pivot, ∀ peer, peer ≠ pivot → peer ∉ scenario.pivot? := by
      cases scenario.pivot? with
      | none => exact ⟨0, fun peer _ => nofun⟩
      | some pivot => exact ⟨pivot, fun peer other same => other (Option.some.inj same).symm⟩
    exact hasQuorum_of_all_but (size.symm ▸ several) fun peer inside other =>
      reaches (size ▸ inside) (all peer other)

/-! ## Tables that are not made anew -/

namespace Traffic

variable {t : Traffic} {move : Move} {moves : List Move}

/-- No session is about to make a new table. -/
def Keeping (t : Traffic) : Prop :=
  ∀ (i : Nat) (line : Line), t.lines[i]? = some line → ∀ statement n,
    line.pending ≠ some (statement, .reaching (.create n))

theorem Keeping.steady (keeping : t.Keeping) (own : ∀ fault, move ≠ .fault fault) :
    Steady t.cluster (t.step move).cluster := by
  cases move with
  | fault fault => exact absurd rfl (own fault)
  | connect node => exact Steady.refl _
  | issue i statement =>
      simp only [Traffic.step]
      split
      · exact steady_start statement t.cluster _
      · exact Steady.refl _
  | resume i =>
      simp only [Traffic.step]
      split
      · next s statement w found =>
          refine steady_resume (fun n => ?_) t.cluster s
          rintro rfl
          exact keeping i _ found statement n rfl
      · exact Steady.refl _

theorem Keeping.step (keeping : t.Keeping) (kept : ∀ i n, move ≠ .issue i (.create n)) :
    (t.step move).Keeping := by
  intro i line located statement n pending
  cases lines_step located with
  | stays before => exact keeping i line before statement n pending
  | opens vacant accepted => cases pending
  | @starts s statement' before =>
      obtain ⟨rfl, latency, next⟩ := Line.pending_ofTurn pending
      have known := starts statement' t.cluster s
      generalize startStatement statement' t.cluster s = turn at known next
      cases known with
      | closed | refused | idle | gaveUp | commits => cases next
      | sends =>
          cases next
          exact kept i n rfl
  | resumes before =>
      obtain ⟨rfl, latency, next⟩ := Line.pending_ofTurn pending
      obtain ⟨id, named⟩ := id?_of_resume next
      cases named

theorem Keeping.foldl (keeping : t.Keeping) (own : ∀ fault, .fault fault ∉ moves)
    (kept : ∀ i n, .issue i (.create n) ∉ moves) : Steady t.cluster (moves.foldl Traffic.step t).cluster := by
  have known : (moves.foldl Traffic.step t).Keeping ∧ Steady t.cluster (moves.foldl Traffic.step t).cluster := by
    refine List.foldlRecOn (motive := fun t' : Traffic => t'.Keeping ∧ Steady t.cluster t'.cluster) moves
      Traffic.step ⟨keeping, Steady.refl _⟩ fun t' ⟨keeping', steady⟩ move member => ?_
    refine ⟨keeping'.step fun i n same => kept i n (same ▸ member), steady.trans ?_⟩
    exact keeping'.steady fun fault same => own fault (same ▸ member)
  exact known.2

end Traffic

end Cluster

/-! ## The standard drills -/

namespace Suite

variable {nodes node : Nat} {e : Exercise}

theorem pivot_of_single {victim : Nat} (member : e ∈ singles victim) :
    e.scenario.pivot? = some victim ∧ e.expectation = .unreachable [victim] ∧ e.name ≠ "normal_operations" := by
  have all : ∀ e ∈ singles victim, e.scenario.pivot? = some victim ∧ e.expectation = .unreachable [victim] ∧
      e.name ≠ "normal_operations" := by
    simp [singles, Scenario.pivot?]
  exact all e member

theorem metBy_of_exercise (member : e ∈ exercises nodes) {able : Nat → Prop}
    (all : ∀ node < nodes, node ∉ e.scenario.pivot? → able node) : e.expectation.MetBy nodes able := by
  rcases mem_exercises member with rfl | ⟨several, single⟩ | ⟨many, rfl⟩
  · exact fun node bound => all node bound nofun
  · obtain ⟨pivot, expectation, -⟩ := pivot_of_single single
    rw [expectation]
    refine fun node bound other => all node bound ?_
    rw [pivot]
    exact fun same => other (List.mem_singleton.mpr (Option.some.inj same).symm)
  · have beside {node : Nat} (other : node ≠ nodes - 1) :
        node ∉ (Exercise.edge (nodes - 2) (nodes - 1)).scenario.pivot? :=
      fun same => other (Option.some.inj same).symm
    refine ⟨fun node bound _ other => all node bound (beside other), Or.inl (all (nodes - 2) ?_ (beside ?_))⟩
    · omega
    · omega

theorem named_of_exercise (member : e ∈ exercises nodes) : ∀ node ∈ e.expectation.named, node < nodes := by
  rcases mem_exercises member with rfl | ⟨several, single⟩ | ⟨many, rfl⟩
  · nofun
  · rw [(pivot_of_single single).2.1]
    simp only [Expectation.named, List.mem_singleton, forall_eq]
    omega
  · simp only [Exercise.edge, Expectation.named, List.mem_cons, List.not_mem_nil, or_false, forall_eq_or_imp,
      forall_eq]
    omega

theorem several_of_exercise (member : e ∈ exercises nodes)
    (majority : nodes = 2 → e.name = "normal_operations") : e.scenario.pivot? = none ∨ 3 ≤ nodes := by
  rcases mem_exercises member with rfl | ⟨several, single⟩ | ⟨many, rfl⟩
  · exact Or.inl rfl
  · refine Or.inr (Nat.lt_of_le_of_ne several fun two => ?_)
    exact (pivot_of_single single).2.2 (majority two.symm)
  · exact Or.inr many

/-- A standard drill on a cluster where nothing was broken, with any sessions that take their steps in any order
from its start on. If there are not just two nodes, or nothing is broken, then at every step the nodes that the
verdict asks to commit can: a new session there commits a transfer that is left alone. -/
theorem standard_asks_the_able (c : Cluster) (m : Nat) (some : 1 ≤ c.size) (intact : c.Intact m)
    (drill : Drill Cluster) (member : drill ∈ (standard Cluster c.size).drills)
    (majority : c.size = 2 → drill.name = "normal_operations") (before : Traffic)
    (begun : before.cluster = (drill.injector.start c).1) (moves : List Traffic.Move)
    (own : ∀ fault, .fault fault ∉ moves) :
    let t := moves.foldl Traffic.step before
    drill.expectation.MetBy c.size t.cluster.CanCommit ∧
    (before.Keeping → (∀ line n, .issue line (.create n) ∉ moves) → t.cluster.Rowed (· < m + 1)) ∧
    ∀ s : Snapshot, (∀ node < c.size, ∃ committed, Verdict.transferCommits s node = .ok committed) →
      (drill.expectation.verifyDuring s c.size = .ok () ↔
        drill.expectation.MetBy c.size (fun node => Verdict.transferCommits s node = .ok true) ∧
          ∀ node ∈ drill.expectation.down, Verdict.transferCommits s node = .ok false) := by
  intro t
  rw [drills_standard] at member
  obtain ⟨e, inside, rfl⟩ := List.mem_map.mp member
  have known : ∀ node ∈ e.scenario.nodes, node < c.size := fun node broken =>
    (nodes_of_exercise inside broken).2.1
  have spared : 0 ∉ e.scenario.nodes := fun broken => Nat.lt_irrefl 0 (nodes_of_exercise inside broken).1
  have served : Served (Scenario.inject e.scenario.startFault? c).1 t.cluster :=
    begun ▸ Traffic.served_foldl before own
  refine ⟨metBy_of_exercise inside fun node bound beside => ?_, fun keeping kept => ?_, fun s judged => ?_⟩
  · exact intact.whole.canCommit known (several_of_exercise inside majority) spared (intact.isFresh some) served
      bound beside
  · have rowed : c.Rowed (· < m + 1) := fun r among _ uid row => intact.rows r among uid (Nat.le_of_lt_succ row)
    refine (keeping.foldl own kept).rowed _ (begun ▸ ?_)
    exact Cluster.rowed_scenario rowed e.scenario.startFault?
  · exact Expectation.verifyDuring_eq_ok judged (named_of_exercise inside)

def cutTransfer : List Traffic.Move :=
  [.connect 1, .issue 0 .begin, .resume 0, .issue 0 (.add 1 (-7)), .resume 0, .issue 0 (.add 2 7), .resume 0,
    .issue 0 .commit, .resume 0, .resume 0]

theorem asked_during_cutTransfer :
    let drill := (Exercise.edge 1 2).drill Cluster
    let t := cutTransfer.foldl Traffic.step { cluster := (drill.injector.start World.smallBank).1 }
    t.cluster.replicas.map (·.stale) = [false, false, true] ∧ drill.expectation = .eitherSide 1 2 ∧
      ∃ s : Session, (Store.accept t.cluster 0).2 = .ok s ∧
        ((Body.transfer 5 7).runAlone 3 t.cluster s).2.1 = .ok false := by
  intro drill t
  have created : (Cluster.new {}).createAccounts 0 0 4 = .ok World.smallBank := by rfl
  have member : drill ∈ (standard Cluster 3).drills := by
    rw [drills_standard]
    exact List.mem_map_of_mem (by simp [exercises])
  obtain ⟨⟨others, -⟩, rowed, -⟩ := standard_asks_the_able World.smallBank 4 (by decide)
    (Cluster.intact_of_created created) drill member (by decide) { cluster := (drill.injector.start World.smallBank).1 }
    rfl cutTransfer (by simp [cutTransfer])
  obtain ⟨s, accepted, commits⟩ := others 0 (by decide) (by decide) (by decide)
  have rows := rowed (fun i line located => by simp at located) (by simp [cutTransfer])
  exact ⟨by decide, rfl, s, accepted, commits 5 7 3 (by decide) rows⟩

def pair : Cluster := { settings := { nodes := 2 }, replicas := List.replicate 2 { accounts := .seed 4 } }

/-- On two nodes every drill that breaks the second asks the first to commit, which has no majority then. -/
theorem pair_is_asked_too_much :
    pair.Intact 4 ∧ exercises 2 = .normal :: singles 1 ∧ ∀ e ∈ singles 1, e.expectation = .unreachable [1] ∧
      (Scenario.inject e.scenario.startFault? pair).2.isOk = true ∧
      ¬ e.expectation.MetBy 2 (Scenario.inject e.scenario.startFault? pair).1.CanCommit := by
  have created : (Cluster.new { nodes := 2 }).createAccounts 0 0 4 = .ok pair := by rfl
  have intact := Cluster.intact_of_created created
  have rowed : pair.Rowed (· < 5) := fun r among _ uid row => intact.rows r among uid (Nat.le_of_lt_succ row)
  refine ⟨intact, rfl, fun e single => ⟨(pivot_of_single single).2.1, ?_, fun met => ?_⟩⟩
  · have all : ∀ e ∈ singles 1, (Scenario.inject e.scenario.startFault? pair).2.isOk = true := by decide
    exact all e single
  · rw [(pivot_of_single single).2.1] at met
    obtain ⟨s, accepted, commits⟩ := met 0 (by decide) (by decide)
    have done := commits 5 7 0 (by decide) (Cluster.rowed_scenario rowed _)
    have opened : ∀ e ∈ singles 1,
        (Store.accept (Scenario.inject e.scenario.startFault? pair).1 0).2 =
          .ok (⟨0, 0, .idle, false, []⟩ : Session) := by decide
    have refused : ∀ e ∈ singles 1, ((Body.transfer 5 7).runAlone 0 (Scenario.inject e.scenario.startFault? pair).1
        (⟨0, 0, .idle, false, []⟩ : Session)).2.1 = .error (.query
          "Transaction MTM-0-1-0 (node 1, xid 1) is aborted on node 1: cluster has no quorum") := by
      decide
    cases (opened e single).symm.trans accepted
    cases (refused e single).symm.trans done

end Suite

end LedgerDrill
