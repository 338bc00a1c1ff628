import LedgerDrill.Proofs.Cluster.Pieces
import LedgerDrill.Proofs.Cluster.Recovery
import Mathlib.Data.List.Induction

namespace LedgerDrill.Cluster
open Workload

variable {c c' c'' : Cluster} {s : Session} {node origin epoch : Nat} {id : TransactionId}
variable {writes : List Write} {w : Waiting} {call : Call} {calls : List Call}

def SoleCopy (c : Cluster) (node : Nat) : Prop := ∀ other, c.isFresh other = true ↔ other = node

/-- A fresh node that has a majority around it, but none of the other fresh replicas. -/
structure Outruns (c : Cluster) (node : Nat) : Prop where
  up : c.holds node (·.up) = true
  fresh : c.isFresh node = true
  quorum : c.hasQuorum node = true
  others : ∃ other, other ≠ node ∧ c.isFresh other = true
  apart : ∀ other, other ≠ node → c.isFresh other = true → other ∉ c.reachable node

/-! ## Steps at a node -/

/-- What calls at a node do to fresh replicas: those that it reaches stay fresh, others are lost only to a change
made there, and no replica gets fresh but its own, from a donor. -/
structure Spreads (origin : Nat) (c c' : Cluster) : Prop where
  alike : Alike c c'
  reached : ∀ peer ∈ c.reachable origin, c.isFresh peer = true → c'.isFresh peer = true
  lost : ∀ peer, c.isFresh peer = true → c'.isFresh peer = false →
    c.holds origin (·.up) = true ∧ c.hasQuorum origin = true ∧ c'.isFresh origin = true
  gained : ∀ peer, c'.isFresh peer = true → c.isFresh peer = false →
    peer = origin ∧ ∃ donor ∈ c.reachable origin, donor ≠ origin ∧ c.isFresh donor = true

theorem Spreads.of_same (alike : Alike c c') (same : ∀ peer, c'.isFresh peer = c.isFresh peer) :
    Spreads origin c c' where
  alike := alike
  reached peer _ fresh := (same peer).trans fresh
  lost peer fresh stale := by
    rw [same, fresh] at stale
    cases stale
  gained peer fresh stale := by
    rw [same, stale] at fresh
    cases fresh

theorem Spreads.refl (c : Cluster) : Spreads origin c c := .of_same (Alike.refl c) fun _ => rfl

theorem Spreads.trans (first : Spreads origin c c') (second : Spreads origin c' c'') : Spreads origin c c'' where
  alike := first.alike.trans second.alike
  reached peer reached fresh :=
    second.reached peer (first.alike.reachable origin ▸ reached) (first.reached peer reached fresh)
  lost peer fresh stale := by
    cases between : c'.isFresh peer with
    | true =>
        obtain ⟨up, quorum, isFresh⟩ := second.lost peer between stale
        exact ⟨(first.alike.up origin).symm.trans up, (first.alike.hasQuorum origin).symm.trans quorum, isFresh⟩
    | false =>
        obtain ⟨up, quorum, isFresh⟩ := first.lost peer fresh between
        have self : origin ∈ c'.reachable origin := reachable_self ((first.alike.up origin).trans up)
        exact ⟨up, quorum, second.reached origin self isFresh⟩
  gained peer fresh stale := by
    cases between : c'.isFresh peer with
    | true => exact first.gained peer between stale
    | false =>
        obtain ⟨same, donor, reached, other, isFresh⟩ := second.gained peer fresh between
        refine ⟨same, donor, first.alike.reachable origin ▸ reached, other, ?_⟩
        exact Bool.of_not_eq_false fun before => other (first.gained donor isFresh before).1

theorem isFresh_modify_eq (c : Cluster) (node : Nat) {f : Replica → Replica} (same : ∀ r, (f r).stale = r.stale)
    (other : Nat) : (c.modify node f).isFresh other = c.isFresh other := by
  rw [isFresh, isFresh, holds, holds, getElem?_modify]
  cases c.replicas[other]? with
  | none => rfl
  | some r =>
      simp only [Option.map_some, Option.any_some]
      split
      · rw [same]
      · rfl

theorem spreads_modify (c : Cluster) (other : Nat) {f : Replica → Replica} (up : ∀ r, (f r).up = r.up)
    (same : ∀ r, (f r).stale = r.stale) : Spreads origin c (c.modify other f) :=
  .of_same (alike_modify c other up) (isFresh_modify_eq c other same)

theorem spreads_serve (served : c.serve node epoch = .ok c') : Spreads node c c' := by
  refine ⟨alike_serve served, fun peer _ fresh => ?_, fun peer fresh stale => ?_, fun peer fresh stale => ?_⟩
  · exact isFresh_serve served fresh
  · cases (isFresh_serve served fresh).symm.trans stale
  · rcases refresh_eq_ok (serve_eq_ok served).2 with ⟨rfl, -⟩ | ⟨donor, found, -, rfl⟩
    · cases fresh.symm.trans stale
    · obtain ⟨reached, other, isFresh⟩ := donor?_eq_some found
      refine ⟨?_, donor, reached, other, isFresh_eq_true.mpr isFresh⟩
      obtain ⟨r', located, isFresh'⟩ := isFresh_eq_true.mp fresh
      rw [getElem?_modify] at located
      obtain ⟨r, before, rfl⟩ := Option.map_eq_some_iff.mp located
      split at isFresh'
      · next same => exact same.symm
      · cases (isFresh_eq_true.mpr ⟨r, before, isFresh'⟩).symm.trans stale

theorem spreads_replicate (up : c.holds origin (·.up) = true) (fresh : c.isFresh origin = true)
    (quorum : c.hasQuorum origin = true) (f : Accounts → Accounts) : Spreads origin c (c.replicate origin f) where
  alike := alike_replicate c origin f
  reached peer reached isFresh := by
    rw [isFresh_replicate, isFresh, Bool.and_true]
    exact List.contains_iff_mem.mpr reached
  lost _ _ _ := ⟨up, quorum, isFresh_origin up fresh f⟩
  gained peer isFresh stale := by
    rw [isFresh_replicate, stale, Bool.and_false] at isFresh
    cases isFresh

theorem spreads_prepare (prepared : c.prepare epoch id = .ok c') : Spreads id.node c c' := by
  obtain ⟨served, step, -, rfl⟩ := prepare_eq_ok prepared
  exact (spreads_serve step).trans (spreads_modify served id.node (fun _ => rfl) fun _ => rfl)

theorem spreads_forget (c : Cluster) (id : TransactionId) : Spreads origin c (c.forget id) :=
  spreads_modify c id.node (fun _ => rfl) fun _ => rfl

theorem spreads_commitPrepared (c : Cluster) (epoch : Nat) (id : TransactionId) (writes : List Write) :
    Spreads id.node c (c.commitPrepared epoch id writes).1 := by
  rcases commitPrepared_cases c epoch id writes with ⟨_, eq⟩ | ⟨_, eq⟩ | ⟨isOpen, fresh, quorum, eq⟩ <;> rw [eq]
  · exact Spreads.refl c
  · exact spreads_forget c id
  · obtain ⟨isFresh, up⟩ := commitPrepared_able isOpen fresh
    exact (spreads_forget c id).trans (spreads_replicate up isFresh quorum (·.apply writes))

theorem spreads_createAccounts {n : Nat} (created : c.createAccounts node epoch n = .ok c') :
    Spreads node c c' := by
  obtain ⟨served, step, quorum, rfl⟩ := createAccounts_eq_ok created
  obtain ⟨fresh, up⟩ := serve_able step
  exact (spreads_serve step).trans (spreads_replicate up fresh quorum _)

def Call.node? : Call → Option Nat
  | .rowExists node .. | .total node _ | .digest node _ | .createAccounts node .. => some node
  | .prepare _ id | .commitPrepared _ id _ => some id.node
  | .openSession _ | .takeNumber | .preparedOn .. | .abortPrepared _ | .fault _ => none

theorem Call.node?_of_reads? (reads : call.reads? = some (node, epoch)) : call.node? = some node := by
  cases call <;> cases reads <;> rfl

theorem spreads_call (c : Cluster) (session : call.isFault = false)
    (home : ∀ node ∈ call.node?, node = origin) : Spreads origin c (c.call call).1 := by
  have known := makes c call
  generalize (c.call call).1 = c' at known
  cases known with
  | nothing => exact Spreads.refl c
  | numbers => exact .of_same ⟨rfl, rfl⟩ fun _ => rfl
  | serves reads served =>
      obtain rfl := home _ (Call.node?_of_reads? reads)
      exact spreads_serve served
  | prepares prepared =>
      obtain rfl := home _ rfl
      exact spreads_prepare prepared
  | commits epoch id writes =>
      obtain rfl := home _ rfl
      exact spreads_commitPrepared c epoch id writes
  | aborts id => exact spreads_forget c id
  | creates created =>
      obtain rfl := home _ rfl
      exact spreads_createAccounts created
  | breaks => cases session

/-! ## Steps of a session -/

def Waiting.home (s : Session) : Waiting → Nat
  | .reaching _ => s.node
  | .preparing id .. | .applying id .. | .tearing id .. => id.node

theorem home_executeCalls {statement : Statement} (member : call ∈ executeCalls c s statement) :
    ∀ node ∈ call.node?, node = s.node := by
  cases statement with
  | commit | rollback => cases member
  | begin | total | create | digest | prepared =>
      cases List.mem_singleton.mp member
      rintro node ⟨⟩ <;> rfl
  | add uid delta =>
      rcases List.mem_cons.mp member with rfl | member
      · rintro node ⟨⟩
        rfl
      · split at member
        · split at member
          · cases member
          · cases List.mem_singleton.mp member
            nofun
        · cases member

theorem home_endCalls (ends : call = .abortPrepared id ∨ ∃ part, call = .commitPrepared epoch id part) :
    ∀ node ∈ call.node?, node = id.node := by
  rcases ends with rfl | ⟨part, rfl⟩
  · nofun
  · rintro node ⟨⟩
    rfl

theorem home_calls (member : call ∈ w.calls c s) : ∀ node ∈ call.node?, node = w.home s := by
  cases w with
  | reaching statement => exact home_executeCalls member
  | applying id writes reply => exact home_endCalls (mem_applyCalls member)
  | tearing id writes reply => exact home_endCalls (mem_tornCalls member)
  | preparing id writes reply =>
      rcases List.mem_cons.mp member with rfl | member
      · rintro node ⟨⟩
        rfl
      · split at member
        · cases member
        · split at member
          · cases member
          · exact home_endCalls (mem_applyCalls member)

theorem spreads_resume (w : Waiting) (c : Cluster) (s : Session) :
    Spreads (w.home s) c (resumeStatement w c s).store := by
  have made : (Ledger.after ⟨c, []⟩ (w.calls c s)).cluster = (resumeStatement w c s).store :=
    Ledger.cluster_calls w
  exact made ▸ Ledger.after_related Spreads.refl Spreads.trans
    (fun c call member => spreads_call c (isFault_calls member) (home_calls member)) ⟨c, []⟩

theorem spreads_start (statement : Statement) (c : Cluster) (s : Session) :
    Spreads origin c (startStatement statement c s).store := by
  have known := starts statement c s
  generalize startStatement statement c s = turn at known
  cases known with
  | closed | refused | idle | gaveUp | sends => exact Spreads.refl c
  | commits => exact .of_same ⟨rfl, rfl⟩ fun _ => rfl

theorem Spreads.outruns (spreads : Spreads origin c c') (sole : c'.SoleCopy node) (shared : ¬ c.SoleCopy node) :
    c.Outruns node := by
  have isFresh' : c'.isFresh node = true := (sole node).mpr rfl
  have fresh : c.isFresh node = true := by
    refine Bool.of_not_eq_false fun stale => ?_
    obtain ⟨rfl, donor, reached, other, isFresh⟩ := spreads.gained node isFresh' stale
    exact other ((sole donor).mp (spreads.reached donor reached isFresh))
  have others : ∃ other, other ≠ node ∧ c.isFresh other = true := by
    by_contra none
    refine shared fun other => ⟨fun isFresh => ?_, fun same => same ▸ fresh⟩
    by_contra apart
    exact none ⟨other, apart, isFresh⟩
  obtain ⟨other, apart, isFresh⟩ := others
  have stale : c'.isFresh other = false := Bool.eq_false_iff.mpr fun stays => apart ((sole other).mp stays)
  obtain ⟨up, quorum, atOrigin⟩ := spreads.lost other isFresh stale
  obtain rfl : origin = node := (sole origin).mp atOrigin
  exact ⟨up, fresh, quorum, ⟨other, apart, isFresh⟩, fun peer away isFresh reached =>
    away ((sole peer).mp (spreads.reached peer reached isFresh))⟩

theorem SoleCopy.crash (sole : c.SoleCopy node) : ¬ (inject (.crash node) c).1.Alive := by
  intro alive
  have inside : node < c.size := lt_size ((sole node).mpr rfl)
  rw [inject_eq fun other member => List.mem_singleton.mp member ▸ inside] at alive
  obtain ⟨peer, fresh'⟩ := alive_iff.mp alive
  obtain ⟨r', located, isFresh'⟩ := isFresh_eq_true.mp fresh'
  rw [applyFault, stopNode, getElem?_modify] at located
  obtain ⟨r, before, rfl⟩ := Option.map_eq_some_iff.mp located
  split at isFresh'
  · cases isFresh'
  · next apart => exact apart ((sole peer).mp (isFresh_eq_true.mpr ⟨r, before, isFresh'⟩)).symm

theorem SoleCopy.of_inject {fault : Fault} (sole : (inject fault c).1.SoleCopy node)
    (kind : ∀ other, fault ≠ .crash other) : c.SoleCopy node := by
  have stays {other : Nat} (fresh : c.isFresh other = true) : (inject fault c).1.isFresh other = true :=
    (isFresh_inject fault fresh).resolve_right (kind other)
  obtain ⟨other, fresh⟩ := alive_iff.mp ((keeps_inject fault c).alive (alive_of_fresh ((sole node).mpr rfl)))
  obtain rfl := (sole other).mp (stays fresh)
  exact fun peer => ⟨fun isFresh => (sole peer).mp (stays isFresh), fun same => same ▸ fresh⟩

namespace Traffic

variable {settings : Settings} {t : Traffic} {move : Move} {moves : List Move}

theorem spreads_step (t : Traffic) (quiet : ∀ fault, move ≠ .fault fault) :
    ∃ origin, Spreads origin t.cluster (t.step move).cluster := by
  cases move with
  | fault fault => exact absurd rfl (quiet fault)
  | connect node => exact ⟨node, Spreads.refl _⟩
  | issue line statement =>
      simp only [step]
      split
      · exact ⟨0, spreads_start statement t.cluster _⟩
      · exact ⟨0, Spreads.refl _⟩
  | resume line =>
      simp only [step]
      split
      · exact ⟨_, spreads_resume _ t.cluster _⟩
      · exact ⟨0, Spreads.refl _⟩

theorem fresh_new {node : Nat} (bound : node < settings.nodes) : (Cluster.new settings).isFresh node = true :=
  isFresh_eq_true.mpr ⟨{}, by simp [Cluster.new, bound], rfl⟩

/-- The last fresh replica is lost where the node that holds it crashes, and nowhere else. -/
theorem dead_iff (some : 0 < settings.nodes) (moves : List Move) :
    ¬ (run settings moves).cluster.Alive ↔ ∃ before node after,
      moves = before ++ .fault (.crash node) :: after ∧ (run settings before).cluster.SoleCopy node := by
  constructor
  · intro dead
    induction moves using List.reverseRecOn with
    | nil => exact absurd (alive_of_fresh (fresh_new some)) dead
    | append_singleton moves move ih =>
        by_cases alive : (run settings moves).cluster.Alive
        · rw [run_append] at dead
          obtain ⟨node, rfl, sole⟩ := crash_of_dead alive dead
          exact ⟨moves, node, [], rfl, sole⟩
        · obtain ⟨before, node, after, rfl, sole⟩ := ih alive
          exact ⟨before, node, after ++ [move], by simp, sole⟩
  · rintro ⟨before, node, after, rfl, sole⟩
    rw [run_append, List.foldl_cons]
    have dead : ¬ ((run settings before).step (.fault (.crash node))).cluster.Alive := sole.crash
    exact List.foldlRecOn (motive := fun t => ¬ t.cluster.Alive) after step dead
      fun t dead move _ => dead_step dead move

theorem outruns_of_sole (enough : 1 < settings.nodes) {before : List Move} {node : Nat}
    (intact : ∀ other, .fault (.crash other) ∉ before) (sole : (run settings before).cluster.SoleCopy node) :
    ∃ earlier move later, before = earlier ++ move :: later ∧ (∀ fault, move ≠ .fault fault) ∧
      (run settings earlier).cluster.Outruns node ∧
      (run settings (earlier ++ [move])).cluster.SoleCopy node := by
  induction before using List.reverseRecOn with
  | nil =>
      have first := (sole 0).mp (fresh_new (Nat.zero_lt_of_lt enough))
      have second := (sole 1).mp (fresh_new enough)
      omega
  | append_singleton moves move ih =>
      by_cases known : (run settings moves).cluster.SoleCopy node
      · obtain ⟨earlier, first, later, rfl, rest⟩ :=
          ih (fun other member => intact other (List.mem_append_left _ member)) known
        exact ⟨earlier, first, later ++ [move], by simp, rest⟩
      · have stepped := sole
        rw [run_append] at stepped
        have quiet (fault : Fault) : move ≠ .fault fault := by
          rintro rfl
          refine known (stepped.of_inject fun other same => intact other ?_)
          simp [same]
        obtain ⟨origin, spreads⟩ := spreads_step (run settings moves) quiet
        exact ⟨moves, move, [], rfl, quiet, spreads.outruns stepped known, sole⟩

theorem calls_step (t : Traffic) (move : Move) : t.calls <+: (t.step move).calls := by
  cases move with
  | connect node | fault fault => exact List.prefix_append _ _
  | issue line statement | resume line =>
      simp only [step]
      split
      · exact List.prefix_append _ _
      · exact List.prefix_rfl

theorem changes_last (settings : Settings) (moves more : List Move) :
    ((run settings moves).ledger settings).changes <+:
      ((run settings (moves ++ more)).ledger settings).changes := by
  have later : (run settings moves).calls <+: (run settings (moves ++ more)).calls := by
    rw [run_append]
    exact List.foldlRecOn (motive := fun t => (run settings moves).calls <+: t.calls) more step
      List.prefix_rfl fun t isPrefix move _ => isPrefix.trans (calls_step t move)
  obtain ⟨new, calls⟩ := later
  rw [ledger, ledger, ← calls, Ledger.run, Ledger.run, Ledger.after_append]
  exact Ledger.changes_grow _ new

theorem tells_when_connected (connected : (run settings moves).cluster.Connected)
    (alive : (run settings moves).cluster.Alive) {node : Nat} (inside : node < settings.nodes) :
    let t := run settings moves
    ∃ s, (Store.accept t.cluster node).2 = .ok s ∧ ∀ random,
      (runAlone random .total t.cluster s).answer = .ok (.total (t.ledger settings).table.total) ∧
      (runAlone random .digest t.cluster s).answer = .ok (.digest (t.ledger settings).table.digest) := by
  intro t
  obtain ⟨s, accepted, -, idle, online⟩ := connected.accept alive (size_run settings moves ▸ inside)
  have able : s.status ≠ .inError := idle ▸ nofun
  have faithful := faithful_run settings moves
  exact ⟨s, accepted, fun random => ⟨online.total able faithful random, online.digest able faithful random⟩⟩

def Move.isCrash : Move → Bool
  | .fault (.crash _) => true
  | _ => false

theorem no_crash_before {before after : List Move} {node : Nat}
    (once : (before ++ .fault (.crash node) :: after).countP Move.isCrash ≤ 1) (other : Nat) :
    .fault (.crash other) ∉ before := by
  intro member
  have first : 0 < before.countP Move.isCrash := List.countP_pos_iff.mpr ⟨_, member, rfl⟩
  rw [List.countP_append, List.countP_cons_of_pos rfl] at once
  omega

/-- Whatever sessions and faults have done, with at most one crash among them. Some replica is fresh unless the
crash hit the node that had the only fresh one; and that node had come by it with a change that it made with a
majority around it, but none of the other fresh replicas. As long as some replica is fresh, every node tells the
table of all changes once all nodes have been started and healed. -/
theorem lost_only_with_sole_copy (settings : Settings) (enough : 3 ≤ settings.nodes) (moves : List Move)
    (once : moves.countP Move.isCrash ≤ 1) :
    let t := run settings moves
    (¬ t.cluster.Alive ↔ ∃ before node after,
      moves = before ++ .fault (.crash node) :: after ∧ (run settings before).cluster.SoleCopy node) ∧
    (∀ before node after, moves = before ++ .fault (.crash node) :: after →
      (run settings before).cluster.SoleCopy node →
      ∃ earlier move later, before = earlier ++ move :: later ∧ (∀ fault, move ≠ .fault fault) ∧
        (run settings earlier).cluster.Outruns node ∧
        (run settings (earlier ++ [move])).cluster.SoleCopy node) ∧
    pieces (effects t.history) ≤ pieces (t.ledger settings).changes ∧
    (settings.torn = false → (t.ledger settings).changes = effects t.history) ∧
    (t.cluster.Alive → ∀ repair, Mends settings.nodes repair →
      let mended := run settings (moves ++ repair)
      (t.ledger settings).changes <+: (mended.ledger settings).changes ∧
      ∀ node < settings.nodes, ∃ s, (Store.accept mended.cluster node).2 = .ok s ∧ ∀ random,
        (runAlone random .total mended.cluster s).answer =
          .ok (.total (mended.ledger settings).table.total) ∧
        (runAlone random .digest mended.cluster s).answer =
          .ok (.digest (mended.ledger settings).table.digest)) := by
  intro t
  refine ⟨dead_iff (by omega) moves, ?_, effects_covered settings moves,
    fun plain => (sound_run plain moves).changes, fun alive repair mends => ?_⟩
  · rintro before node after rfl sole
    exact outruns_of_sole (by omega) (no_crash_before once) sole
  · obtain ⟨connected, alive'⟩ := mends.run alive
    exact ⟨changes_last settings moves repair, fun node inside => tells_when_connected connected alive' inside⟩

def transferOn (line : Nat) : List Move :=
  [.issue line .begin, .resume line, .issue line (.add 1 (-5)), .resume line, .issue line (.add 2 5),
    .resume line, .issue line .commit, .resume line, .resume line]

/-- The third node misses a transfer of the first and stays stale. Together with it the first node has a majority
for a transfer that the second misses. -/
def outrun : List Move :=
  [.connect 0, .issue 0 (.create 2), .resume 0, .fault (.isolate 2)] ++ transferOn 0 ++
    [.fault (.heal 2), .fault (.cut 0 1)] ++ transferOn 0

def sharedCopy : List Move :=
  [.connect 0, .issue 0 (.create 2), .resume 0, .fault (.isolate 1)] ++ transferOn 0 ++ [.fault (.crash 0)]

theorem copies_of_outrun :
    (∃ earlier move later, outrun = earlier ++ move :: later ∧ (run {} earlier).cluster.Outruns 0 ∧
      (run {} (earlier ++ [move])).cluster.SoleCopy 0) ∧
    let t := run {} sharedCopy
    let mended := run {} (sharedCopy ++ repairs)
    t.cluster.replicas.map (·.stale) = [true, true, false] ∧
    (t.ledger {}).changes = [.create 2, .write [⟨1, -5⟩, ⟨2, 5⟩]] ∧
    ∃ s, (Store.accept mended.cluster 1).2 = .ok s ∧
      (runAlone 7 .total mended.cluster s).answer = .ok (.total (mended.ledger {}).table.total) := by
  obtain ⟨-, causes, -⟩ := lost_only_with_sole_copy {} (by decide) (outrun ++ [.fault (.crash 0)]) (by decide)
  have sole : (run {} outrun).cluster.SoleCopy 0 := by
    intro other
    refine ⟨fun fresh => ?_, fun same => same ▸ rfl⟩
    have inside : other < 3 := lt_size fresh
    rcases below_three inside with rfl | rfl | rfl
    · rfl
    · cases fresh
    · cases fresh
  obtain ⟨earlier, move, later, split, -, known⟩ := causes outrun 0 [] rfl sole
  refine ⟨⟨earlier, move, later, split, known⟩, ?_⟩
  intro t mended
  obtain ⟨-, -, -, -, reads⟩ := lost_only_with_sole_copy {} (by decide) sharedCopy (by decide)
  have alive : t.cluster.Alive := by unfold Alive; decide
  obtain ⟨s, accepted, told⟩ := (reads alive repairs mends_repairs).2 1 (by decide)
  exact ⟨by decide, by decide, s, accepted, (told 7).1⟩

/-- One crash among three nodes, and no replica is fresh any more. All nodes are started and healed, and none
answers. -/
theorem dead_after_outrun :
    let crashed := outrun ++ [.fault (.crash 0)]
    let t := run {} crashed
    let last := run {} (crashed ++ repairs ++ threeReads)
    crashed.countP Move.isCrash = 1 ∧ t.history.map (·.answer.toBool) = List.replicate 9 true ∧
      (∀ r ∈ t.cluster.replicas, r.stale = true) ∧ last.cluster.replicas.map (·.up) = [true, true, true] ∧
      last.cluster.links.cuts = [] ∧ (last.history.take 3).map (·.answer) =
        [.error (.query "node 1 is in recovery: no fresh donor reachable"),
          .error (.query "node 2 is in recovery: no fresh donor reachable"),
          .error (.query "node 3 is in recovery: no fresh donor reachable")] := by
  decide

end Traffic

end LedgerDrill.Cluster
