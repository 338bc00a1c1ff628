import LedgerDrill.Proofs.Cluster.Failures
import LedgerDrill.Proofs.Cluster.Links
import LedgerDrill.Scenario
import Mathlib.Data.List.Nodup

namespace LedgerDrill.Cluster

variable {c c' c'' : Cluster} {s : Session} {node epoch : Nat} {id : TransactionId} {writes : List Write}
variable {reply : Reply} {w w' : Waiting}

/-! ## Power and links -/

structure Alike (c c' : Cluster) : Prop where
  links : c'.links = c.links
  power : c'.replicas.map (·.up) = c.replicas.map (·.up)

theorem Alike.refl (c : Cluster) : Alike c c := ⟨rfl, rfl⟩

theorem Alike.trans (first : Alike c c') (second : Alike c' c'') : Alike c c'' :=
  ⟨second.links.trans first.links, second.power.trans first.power⟩

theorem alike_modify (c : Cluster) (node : Nat) {f : Replica → Replica} (same : ∀ r, (f r).up = r.up) :
    Alike c (c.modify node f) := by
  refine ⟨rfl, List.ext_getElem? fun other => ?_⟩
  rw [List.getElem?_map, getElem?_modify, List.getElem?_map, Option.map_map]
  congr 1
  funext r
  simp only [Function.comp_apply]
  split
  · exact same r
  · rfl

theorem alike_replicate (c : Cluster) (origin : Nat) (f : Accounts → Accounts) :
    Alike c (c.replicate origin f) := by
  refine ⟨rfl, List.ext_getElem? fun other => ?_⟩
  rw [List.getElem?_map, replicate, List.getElem?_mapIdx, List.getElem?_map, Option.map_map]
  congr 1
  funext r
  simp only [Function.comp_apply]
  split <;> rfl

theorem alike_serve (served : c.serve node epoch = .ok c') : Alike c c' := by
  rcases refresh_eq_ok (serve_eq_ok served).2 with ⟨rfl, -⟩ | ⟨donor, -, -, rfl⟩
  · exact Alike.refl _
  · exact alike_modify c node fun _ => rfl

theorem alike_prepare (prepared : c.prepare epoch id = .ok c') : Alike c c' := by
  obtain ⟨served, step, -, rfl⟩ := prepare_eq_ok prepared
  exact (alike_serve step).trans (alike_modify served id.node fun _ => rfl)

theorem alike_forget (c : Cluster) (id : TransactionId) : Alike c (c.forget id) :=
  alike_modify c id.node fun _ => rfl

theorem alike_commitPrepared (c : Cluster) (epoch : Nat) (id : TransactionId) (writes : List Write) :
    Alike c (c.commitPrepared epoch id writes).1 := by
  rcases commitPrepared_cases c epoch id writes with ⟨_, eq⟩ | ⟨_, eq⟩ | ⟨_, _, _, eq⟩ <;> rw [eq]
  · exact Alike.refl c
  · exact alike_forget c id
  · exact (alike_forget c id).trans (alike_replicate (c.forget id) id.node (·.apply writes))

structure Settled (c : Cluster) (s : Session) (turn : SessionTurn) : Prop where
  alike : Alike c turn.store
  node : turn.session.node = s.node

theorem node_fail (s : Session) (e : StoreError) : (s.fail e).node = s.node := by
  unfold Session.fail
  split
  · rfl
  · rfl
  · split <;> rfl

theorem node_endCommit (s : Session) : s.endCommit.node = s.node := by
  unfold Session.endCommit
  split <;> rfl

theorem settled_failed (c : Cluster) (s : Session) (e : StoreError) : Settled c s (failed c s e) :=
  ⟨Alike.refl c, node_fail s e⟩

theorem settled_beginCommit (alike : Alike c c') (s : Session) (writes : List Write) (reply : Reply) :
    Settled c s (beginCommit c' s writes reply) :=
  ⟨⟨alike.links, alike.power⟩, rfl⟩

theorem settled_finishCommit (alike : Alike c c') (s : Session) (id : TransactionId) (reply : Reply)
    (result : Except StoreError Unit) : Settled c s (finishCommit c' s id reply result) := by
  cases result with
  | ok done => exact ⟨alike, node_endCommit s⟩
  | error e =>
      refine ⟨?_, (node_endCommit _).trans (node_fail s e)⟩
      cases e with
      | query text => exact alike.trans (alike_forget c' id)
      | connectFailed | connectionClosed | inFailedTransaction | noTransaction | rowCount | tooFewAccounts =>
          exact alike

theorem settled_puts {torn : Bool} (alike : Alike c c') (puts : Puts c' s id reply torn writes turn) :
    Settled c s turn := by
  cases puts with
  | nothing => exact ⟨alike, node_endCommit s⟩
  | next => exact ⟨alike.trans (alike_commitPrepared c' s.epoch id _), rfl⟩
  | last | whole => exact settled_finishCommit (alike.trans (alike_commitPrepared c' s.epoch id _)) s id reply _

theorem settled_execute (c : Cluster) (s : Session) (statement : Statement) :
    Settled c s (execute c s statement) := by
  have known := executes c s statement
  generalize execute c s statement = turn at known
  cases known with
  | refused | offline | lost => exact settled_failed c s _
  | begins served | misses served | buffers served | totals served | digests served =>
      exact ⟨alike_serve served, rfl⟩
  | commits served => exact settled_beginCommit (alike_serve served) s _ _
  | @creates c' n served => exact ⟨(alike_serve served).trans (alike_replicate c' s.node fun _ => .seed n), rfl⟩
  | counts | rollsBack | ends => exact ⟨Alike.refl c, rfl⟩

theorem settled_resume (w : Waiting) (c : Cluster) (s : Session) : Settled c s (resumeStatement w c s) := by
  have known := resumes w c s
  generalize resumeStatement w c s = turn at known
  cases known with
  | reaching statement => exact settled_execute c s statement
  | refused => exact ⟨Alike.refl c, (node_endCommit _).trans (node_fail s _)⟩
  | prepared prepared => exact ⟨alike_prepare prepared, rfl⟩
  | goesOn prepared puts => exact settled_puts (alike_prepare prepared) puts
  | applying puts | tearing puts => exact settled_puts (Alike.refl c) puts

theorem settled_start (statement : Statement) (c : Cluster) (s : Session) :
    Settled c s (startStatement statement c s) := by
  have known := starts statement c s
  generalize startStatement statement c s = turn at known
  cases known with
  | closed | refused | idle | gaveUp | sends => exact ⟨Alike.refl c, rfl⟩
  | commits => exact ⟨⟨rfl, rfl⟩, rfl⟩

/-! ## Cut off -/

theorem holds_up (c : Cluster) (node : Nat) :
    c.holds node (·.up) = (c.replicas.map (·.up))[node]?.any fun up => up := by
  rw [holds, List.getElem?_map, Option.any_map]

theorem Alike.size (alike : Alike c c') : c'.size = c.size := by
  have lengths := congrArg List.length alike.power
  rwa [List.length_map, List.length_map] at lengths

theorem Alike.hasQuorum (alike : Alike c c') (node : Nat) : c'.hasQuorum node = c.hasQuorum node := by
  simp only [Cluster.hasQuorum, reachable, holds_up, alike.size, alike.power, alike.links]

/-- Nothing has happened to the power and the links of the node. -/
structure Untouched (node : Nat) (c c' : Cluster) : Prop where
  size : c'.size = c.size
  power : c'.holds node (·.up) = c.holds node (·.up)
  links : ∀ peer, c'.links.connected node peer = c.links.connected node peer

theorem Untouched.refl (node : Nat) (c : Cluster) : Untouched node c c := ⟨rfl, rfl, fun _ => rfl⟩

theorem Untouched.trans (first : Untouched node c c') (second : Untouched node c' c'') : Untouched node c c'' :=
  ⟨second.size.trans first.size, second.power.trans first.power,
    fun peer => (second.links peer).trans (first.links peer)⟩

theorem Alike.untouched (alike : Alike c c') (node : Nat) : Untouched node c c' where
  size := alike.size
  power := by rw [holds_up, holds_up, alike.power]
  links peer := by rw [alike.links]

/-- The node is down, or none of the others is linked to it. -/
structure CutOff (node : Nat) (c : Cluster) : Prop where
  several : 2 ≤ c.size
  apart : c.holds node (·.up) = false ∨
    ∀ peer < c.size, peer ≠ node → c.links.connected node peer = false

theorem CutOff.keep (cutOff : CutOff node c) (untouched : Untouched node c c') : CutOff node c' where
  several := untouched.size ▸ cutOff.several
  apart := by
    rw [untouched.power, untouched.size]
    refine cutOff.apart.imp_right fun alone peer member other => ?_
    rw [untouched.links]
    exact alone peer member other

theorem CutOff.hasQuorum (cutOff : CutOff node c) (isOpen : c.isOpen node epoch = true) :
    c.hasQuorum node = false := by
  rcases cutOff.apart with down | alone
  · obtain ⟨r, found, up, -⟩ := isOpen_eq_true.mp isOpen
    rw [holds_eq_false.mp down r found] at up
    contradiction
  · have itself : ∀ peer ∈ List.range c.size,
        (c.holds peer (·.up) && c.links.connected node peer) = true → (peer == node) = true := by
      intro peer member reached
      by_cases same : peer = node
      · exact beq_iff_eq.mpr same
      · rw [alone peer (List.mem_range.mp member) same, Bool.and_false] at reached
        contradiction
    have once : (List.range c.size).count node ≤ 1 := List.nodup_iff_count_le_one.mp List.nodup_range node
    have few : (c.reachable node).length ≤ 1 := by
      rw [reachable, ← List.countP_eq_length_filter]
      exact Nat.le_trans (List.countP_mono_left itself) once
    have several := cutOff.several
    rw [Cluster.hasQuorum, majority, decide_eq_false_iff_not]
    omega

theorem CutOff.prepare (cutOff : CutOff id.node c) : c.prepare epoch id ≠ .ok c' := by
  intro prepared
  obtain ⟨served, step, quorum, -⟩ := prepare_eq_ok prepared
  rw [(alike_serve step).hasQuorum, cutOff.hasQuorum (serve_eq_ok step).1] at quorum
  contradiction

theorem CutOff.commitPrepared (cutOff : CutOff id.node c) (epoch : Nat) (writes : List Write) :
    (c.commitPrepared epoch id writes).2 ≠ .ok () := by
  intro committed
  rcases commitPrepared_cases c epoch id writes with ⟨_, eq⟩ | ⟨_, eq⟩ | ⟨isOpen, _, quorum, eq⟩
  · rw [eq] at committed
    contradiction
  · rw [eq] at committed
    contradiction
  · rw [(alike_forget c id).hasQuorum, cutOff.hasQuorum isOpen] at quorum
    contradiction

/-! ## Commits -/

inductive Carries (node : Nat) : Waiting → Prop
  | preparing {id : TransactionId} {writes : List Write} {reply : Reply} (home : id.node = node)
      (some : writes ≠ []) : Carries node (.preparing id writes reply)
  | applying {id : TransactionId} {writes : List Write} {reply : Reply} (home : id.node = node)
      (some : writes ≠ []) : Carries node (.applying id writes reply)
  | tearing {id : TransactionId} {writes : List Write} {reply : Reply} (home : id.node = node)
      (some : writes ≠ []) : Carries node (.tearing id writes reply)

/-- A commit of a transaction with at least one write, with its session where it waits. Before each of its
steps anything may have happened to the cluster. -/
inductive Committing (node : Nat) : Session → Waiting → Prop
  | begun {c : Cluster} {s : Session} {latency : Latency} {w : Waiting} (home : s.node = node)
      (some : s.writes ≠ []) (next : (startStatement .commit c s).next = .waiting latency w) :
      Committing node (startStatement .commit c s).session w
  /-- An update outside a transaction commits by itself. -/
  | single {c : Cluster} {s : Session} {uid : Nat} {delta : Int} {latency : Latency} {w : Waiting}
      (home : s.node = node) (next : (execute c s (.add uid delta)).next = .waiting latency w) :
      Committing node (execute c s (.add uid delta)).session w
  | resumed {c : Cluster} {s : Session} {w : Waiting} {latency : Latency} {w' : Waiting}
      (before : Committing node s w) (next : (resumeStatement w c s).next = .waiting latency w') :
      Committing node (resumeStatement w c s).session w'

theorem carries_begun {latency : Latency} (some : s.writes ≠ [])
    (next : (startStatement .commit c s).next = .waiting latency w) : Carries s.node w := by
  have known := starts .commit c s
  generalize startStatement .commit c s = turn at known next
  cases known with
  | closed | refused | idle | gaveUp => cases next
  | commits =>
      cases next
      have home : TransactionId.node ⟨s.node, c.nextNumber, s.epoch⟩ = s.node := rfl
      exact .preparing home some
  | sends _ notCommit => contradiction

theorem carries_single {uid : Nat} {delta : Int} {latency : Latency}
    (next : (execute c s (.add uid delta)).next = .waiting latency w) : Carries s.node w := by
  have known := executes c s (.add uid delta)
  generalize execute c s (.add uid delta) = turn at known next
  cases known with
  | refused | misses | buffers => cases next
  | @commits c' =>
      cases next
      have home : TransactionId.node ⟨s.node, c'.nextNumber, s.epoch⟩ = s.node := rfl
      exact .preparing home (List.cons_ne_nil _ _)

theorem carries_puts {torn : Bool} {latency : Latency} (home : id.node = node)
    (puts : Puts c s id reply torn writes turn) (next : turn.next = .waiting latency w) : Carries node w := by
  cases puts with
  | nothing => cases next
  | next =>
      cases next
      exact .tearing home (List.cons_ne_nil _ _)
  | last | whole =>
      rw [finishCommit_next] at next
      cases next

theorem Carries.resume {latency : Latency} (carries : Carries node w)
    (next : (resumeStatement w c s).next = .waiting latency w') : Carries node w' := by
  have known := resumes w c s
  generalize resumeStatement w c s = turn at known next
  cases carries with
  | applying home =>
      cases known with
      | applying puts => exact carries_puts home puts next
  | tearing home =>
      cases known with
      | tearing puts => exact carries_puts home puts next
  | preparing home some =>
      cases known with
      | refused => cases next
      | prepared =>
          cases next
          exact .applying home some
      | goesOn _ puts => exact carries_puts home puts next

theorem Committing.carries (committing : Committing node s w) : Carries node w := by
  induction committing with
  | begun home some next => exact home ▸ carries_begun some next
  | single home next => exact home ▸ carries_single next
  | resumed before next ih => exact ih.resume next

theorem map_ne_ok {result : Except StoreError Unit} (refused : result ≠ .ok ()) (reply reply' : Reply) :
    Next.answered (π := Waiting) (result.map fun _ => reply) ≠ .answered (.ok reply') := by
  cases result with
  | ok done => contradiction
  | error e =>
      intro same
      cases same

theorem CutOff.puts {torn : Bool} (cutOff : CutOff id.node c) (some : writes ≠ [])
    (puts : Puts c s id reply torn writes turn) (reply' : Reply) : turn.next ≠ .answered (.ok reply') := by
  cases puts with
  | nothing => contradiction
  | next => nofun
  | last | whole =>
      rw [finishCommit_next]
      exact map_ne_ok (cutOff.commitPrepared s.epoch _) reply reply'

theorem CutOff.refuses (cutOff : CutOff node c) (carries : Carries node w) (s : Session) (reply : Reply) :
    (resumeStatement w c s).next ≠ .answered (.ok reply) := by
  have known := resumes w c s
  generalize resumeStatement w c s = turn at known
  cases carries with
  | applying home some =>
      subst home
      cases known with
      | applying puts => exact cutOff.puts some puts reply
  | tearing home some =>
      subst home
      cases known with
      | tearing puts => exact cutOff.puts some puts reply
  | preparing home some =>
      subst home
      cases known with
      | refused => nofun
      | prepared prepared | goesOn prepared => exact absurd prepared cutOff.prepare

/-! ## Scenarios with a victim -/

namespace Links

variable {l : Links} {a b : Nat}

theorem connected_isolate (l : Links) {size : Nat} (member : b < size) (other : b ≠ a) :
    (l.isolate size a).connected a b = false :=
  (connected_eq_false_iff other.symm).mpr (mem_cuts_isolate.mpr (.inr ⟨b, member, other.symm, rfl⟩))

end Links

theorem size_modify (c : Cluster) (node : Nat) (f : Replica → Replica) : (c.modify node f).size = c.size :=
  List.length_modify ..

theorem untouched_modify (c : Cluster) {other : Nat} (ne : other ≠ node) (f : Replica → Replica) :
    Untouched node c (c.modify other f) where
  size := size_modify c other f
  power := by
    rw [holds, holds, getElem?_modify]
    simp only [ne, ↓reduceIte, Option.map_id']
  links _ := rfl

theorem down_stopNode (c : Cluster) (node : Nat) (crash : Bool) :
    (c.stopNode node crash).holds node (·.up) = false := by
  rw [holds_eq_false]
  intro r found
  rw [stopNode, getElem?_modify] at found
  obtain ⟨old, -, rfl⟩ := Option.map_eq_some_iff.mp found
  rw [if_pos rfl]

theorem cutOff_start {scenario : Scenario} (victim : scenario.unreachable = [node])
    (several : 2 ≤ c.size) (member : node < c.size) :
    ∃ c', Scenario.inject scenario.startFault? c = (c', .ok ()) ∧ CutOff node c' := by
  have inject (fault : Fault) (names : faultNodes fault = [node]) :
      Scenario.inject (some fault) c = (c.applyFault fault, .ok ()) := by
    have known : ¬ c.size ≤ node := Nat.not_le.mpr member
    simp [Scenario.inject, FaultTarget.inject, Cluster.inject, names, known]
  have stops (crash : Bool) : CutOff node (c.stopNode node crash) :=
    ⟨(size_modify c node _).symm ▸ several, Or.inl (down_stopNode c node crash)⟩
  cases scenario with
  | baseline | edge => cases victim
  | partition victim' =>
      cases victim
      refine ⟨_, inject (.isolate node) rfl, several, Or.inr fun peer known other => ?_⟩
      exact Links.connected_isolate c.links known other
  | restart victim' =>
      cases victim
      exact ⟨_, inject (.shutdown node) rfl, stops false⟩
  | crash victim' =>
      cases victim
      exact ⟨_, inject (.crash node) rfl, stops true⟩

end LedgerDrill.Cluster
