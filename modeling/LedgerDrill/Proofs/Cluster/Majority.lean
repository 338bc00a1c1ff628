import LedgerDrill.Proofs.Cluster.Recovery

namespace LedgerDrill.Cluster

variable {c : Cluster} {s : Session} {node epoch : Nat} {id : TransactionId} {writes : List Write}
variable {statement : Statement} {reply : Reply} {w : Waiting} {turn : SessionTurn}

/-! ## Where statements wait -/

inductive Stands (node : Nat) (statement : Statement) : Waiting → Prop
  | reaching (notCommit : statement ≠ .commit) : Stands node statement (.reaching statement)
  | carries {w : Waiting} (carries : Carries node w) : Stands node statement w
  | preparing {id : TransactionId} {reply : Reply} (commit : statement = .commit) (home : id.node = node) :
      Stands node statement (.preparing id [] reply)
  | applying {id : TransactionId} {reply : Reply} (commit : statement = .commit) (home : id.node = node) :
      Stands node statement (.applying id [] reply)

theorem stands_preparing (commit : statement = .commit) (home : id.node = node) :
    Stands node statement (.preparing id writes reply) := by
  cases writes with
  | nil => exact .preparing commit home
  | cons write rest => exact .carries (.preparing home (List.cons_ne_nil _ _))

theorem stands_start {latency : Latency} (next : (startStatement statement c s).next = .waiting latency w) :
    Stands s.node statement w := by
  have known := starts statement c s
  generalize startStatement statement c s = turn at known next
  cases known with
  | closed | refused | idle | gaveUp => cases next
  | commits =>
      cases next
      have home : TransactionId.node ⟨s.node, c.nextNumber, s.epoch⟩ = s.node := rfl
      exact stands_preparing rfl home
  | sends isOpen notCommit able =>
      cases next
      exact .reaching notCommit

theorem Puts.ends {torn : Bool} (puts : Puts c s id reply torn [] turn) : ∃ answer, turn.next = .answered answer := by
  cases puts with
  | nothing => exact ⟨_, rfl⟩
  | whole => exact ⟨_, finishCommit_next _ s id reply _⟩

theorem Stands.resume {latency : Latency} {w' : Waiting} (stands : Stands s.node statement w)
    (next : (resumeStatement w c s).next = .waiting latency w') : Stands s.node statement w' := by
  cases stands with
  | reaching notCommit => exact .carries (carries_execute next)
  | carries carries => exact .carries (carries.resume next)
  | @applying id reply commit home =>
      obtain ⟨answer, answered⟩ := (puts_applyWrites c s id [] reply).ends
      cases answered.symm.trans next
  | @preparing id reply commit home =>
      have known := resumes (.preparing id [] reply) c s
      generalize resumeStatement (.preparing id [] reply) c s = turn at known next
      cases known with
      | refused => cases next
      | prepared =>
          cases next
          exact .applying commit home
      | goesOn _ puts =>
          obtain ⟨answer, answered⟩ := puts.ends
          cases answered.symm.trans next

namespace Traffic

variable {t : Traffic} {line : Line}

def Standing (t : Traffic) : Prop := ∀ (i : Nat) (line : Line), t.lines[i]? = some line →
  ∀ statement w, line.pending = some (statement, w) → Stands line.session.node statement w

theorem Standing.step (standing : t.Standing) (move : Move) : (t.step move).Standing := by
  intro i line located statement w pending
  cases lines_step located with
  | stays before => exact standing i line before statement w pending
  | opens vacant accepted => cases pending
  | @starts s statement' before =>
      obtain ⟨rfl, latency, next⟩ := Line.pending_ofTurn pending
      rw [session_ofTurn, (settled_start statement' t.cluster s).node]
      exact stands_start next
  | @resumes s statement' w' before =>
      obtain ⟨rfl, latency, next⟩ := Line.pending_ofTurn pending
      have stands : Stands s.node statement' w' := standing i _ before statement' w' rfl
      rw [session_ofTurn, (settled_resume w' t.cluster s).node]
      exact stands.resume next

theorem standing_run (settings : Settings) (moves : List Move) : (run settings moves).Standing :=
  List.foldlRecOn (motive := Standing) moves Traffic.step (fun i line found => by simp at found)
    fun _ standing move _ => standing.step move

end Traffic

/-! ## What a step needs -/

/-- Whether a statement is about the data, as opposed to the session or the prepared transactions. -/
def concernsData : Statement → Bool
  | .rollback | .prepared => false
  | _ => true

def GoesOn (turn : SessionTurn) : Prop := ∀ e, turn.next ≠ .answered (.error e)

/-- The session is served by its node, with a majority or for want of one from a fresh replica. -/
structure Backed (c : Cluster) (node epoch : Nat) (reads : Prop) : Prop where
  isOpen : c.isOpen node epoch = true
  majority : c.hasQuorum node = true ∨ reads ∧ c.isFresh node = true

theorem Backed.imp {reads reads' : Prop} (backed : Backed c node epoch reads) (imp : reads → reads') :
    Backed c node epoch reads' :=
  ⟨backed.isOpen, backed.majority.imp_right (And.imp_left imp)⟩

theorem backed_serve {c' : Cluster} (served : c.serve node epoch = .ok c') : Backed c node epoch True := by
  obtain ⟨isOpen, refreshed⟩ := serve_eq_ok served
  refine ⟨isOpen, ?_⟩
  rcases refresh_eq_ok refreshed with ⟨-, fresh⟩ | ⟨donor, -, quorum, -⟩
  · -- The replica is fresh already, so nobody was asked for a majority.
    obtain ⟨r, found, -⟩ := isOpen_eq_true.mp isOpen
    exact Or.inr ⟨trivial, isFresh_eq_true.mpr ⟨r, found, fresh r found⟩⟩
  · exact Or.inl quorum

theorem backed_prepare {c' : Cluster} (prepared : c.prepare epoch id = .ok c') :
    Backed c id.node epoch False := by
  obtain ⟨served, step, quorum, -⟩ := prepare_eq_ok prepared
  exact ⟨(serve_eq_ok step).1, Or.inl ((alike_serve step).hasQuorum id.node ▸ quorum)⟩

theorem backed_commitPrepared (done : (c.commitPrepared epoch id writes).2 = .ok ()) :
    Backed c id.node epoch False := by
  rcases commitPrepared_cases c epoch id writes with ⟨-, eq⟩ | ⟨-, eq⟩ | ⟨isOpen, -, quorum, -⟩
  · rw [eq] at done
    contradiction
  · rw [eq] at done
    contradiction
  · exact ⟨isOpen, Or.inl ((alike_forget c id).hasQuorum id.node ▸ quorum)⟩

theorem backed_execute (notCommit : statement ≠ .commit) (data : concernsData statement = true)
    (goesOn : GoesOn (execute c s statement)) :
    Backed c s.node s.epoch (∀ n, statement ≠ .create n) := by
  have known := executes c s statement
  generalize execute c s statement = turn at known goesOn
  cases known with
  | refused | offline | lost => exact absurd rfl (goesOn _)
  | counts | rollsBack => cases data
  | ends => exact absurd rfl notCommit
  | begins served | misses served | buffers served | commits served | totals served | digests served =>
      exact (backed_serve served).imp fun _ _ => nofun
  | creates served quorum =>
      exact ⟨(serve_eq_ok served).1, Or.inl ((alike_serve served).hasQuorum s.node ▸ quorum)⟩

theorem goesOn_finishCommit {result : Except StoreError Unit} (goesOn : GoesOn (finishCommit c s id reply result)) :
    result = .ok () := by
  cases result with
  | ok done => rfl
  | error e => exact absurd rfl (goesOn e)

theorem backed_puts {torn : Bool} (looks : torn = false ∨ writes ≠ []) (puts : Puts c s id reply torn writes turn)
    (goesOn : GoesOn turn) : Backed c id.node s.epoch False := by
  cases puts with
  | nothing => exact absurd rfl (looks.resolve_left nofun)
  | next applied => exact backed_commitPrepared applied
  | last | whole => exact backed_commitPrepared (goesOn_finishCommit goesOn)

theorem backed_preparing (goesOn : GoesOn (resumeStatement (.preparing id writes reply) c s)) :
    Backed c id.node s.epoch False := by
  have known := resumes (.preparing id writes reply) c s
  generalize resumeStatement (.preparing id writes reply) c s = turn at known goesOn
  cases known with
  | refused => exact absurd rfl (goesOn _)
  | prepared prepared | goesOn prepared => exact backed_prepare prepared

theorem applyCalls_nil (asks : applyCalls c s id [] ≠ []) : c.settings.torn = false := by
  unfold applyCalls at asks
  split at asks
  · contradiction
  · next plain => exact Bool.eq_false_iff.mpr plain

theorem Stands.backed (stands : Stands s.node statement w) (data : concernsData statement = true)
    (asks : w.calls c s ≠ []) (goesOn : GoesOn (resumeStatement w c s)) :
    Backed c s.node s.epoch (w = .reaching statement ∧ ∀ n, statement ≠ .create n) := by
  cases stands with
  | reaching notCommit => exact (backed_execute notCommit data goesOn).imp fun reads => ⟨rfl, reads⟩
  | preparing commit home => exact home ▸ (backed_preparing goesOn).imp False.elim
  -- A torn commit of nothing has no second phase: it would make no call here.
  | @applying id reply commit home =>
      have puts := puts_applyWrites c s id [] reply
      exact home ▸ (backed_puts (Or.inl (applyCalls_nil asks)) puts goesOn).imp False.elim
  | carries carries =>
      cases carries with
      | preparing home some => exact home ▸ (backed_preparing goesOn).imp False.elim
      | @applying id writes reply home some =>
          exact home ▸ (backed_puts (Or.inr some) (puts_applyWrites c s id writes reply) goesOn).imp False.elim
      | @tearing id writes reply home some =>
          exact home ▸ (backed_puts (Or.inr some) (puts_applyTorn c s id writes reply) goesOn).imp False.elim

/-! ## The majority side -/

/-- The node is up, and one of at least a quorum of nodes that are up and linked to it. -/
structure InMajority (settings : Settings) (c : Cluster) (node : Nat) : Prop where
  among : node ∈ c.reachable node
  enough : settings.quorum ≤ (c.reachable node).length

namespace Traffic

/-- Whatever sessions and faults have done: a statement about the data is refused in each of its steps at the
cluster, unless its node is up, in the epoch of the session, and on the side of a majority. Only what just reads
a replica that is fresh goes on without a majority. -/
theorem data_needs_majority (settings : Settings) (moves : List Move) :
    let t := run settings moves
    ∀ (i : Nat) (s : Session) (statement : Statement) (w : Waiting),
      t.lines[i]? = some ⟨s, some (statement, w)⟩ → concernsData statement = true →
      w.calls t.cluster s ≠ [] → GoesOn (resumeStatement w t.cluster s) →
      t.cluster.isOpen s.node s.epoch = true ∧
      (InMajority settings t.cluster s.node ∨
        (w = .reaching statement ∧ ∀ n, statement ≠ .create n) ∧ t.cluster.isFresh s.node = true) := by
  intro t i s statement w located data asks goesOn
  have stands : Stands s.node statement w := standing_run settings moves i _ located statement w rfl
  have backed := stands.backed data asks goesOn
  refine ⟨backed.isOpen, backed.majority.imp_left fun quorum => ?_⟩
  refine ⟨reachable_self (up_of_isOpen backed.isOpen), ?_⟩
  have size : t.cluster.size = settings.nodes := size_run settings moves
  rw [hasQuorum, decide_eq_true_eq, size] at quorum
  exact quorum

def preparedOnTwo : List Move :=
  [.connect 0, .issue 0 (.create 2), .resume 0, .fault (.crash 2), .connect 1, .issue 1 .begin, .resume 1,
    .issue 1 (.add 1 5), .resume 1, .issue 1 .commit, .resume 1]

theorem majority_of_preparedOnTwo :
    let t := run {} preparedOnTwo
    let id : TransactionId := ⟨1, 1, 0⟩
    let s : Session := ⟨1, 0, .inTransaction, false, []⟩
    t.lines[1]? = some ⟨s, some (.commit, .applying id [⟨1, 5⟩] .done)⟩ ∧
    (resumeStatement (.applying id [⟨1, 5⟩] .done) t.cluster s).next = .answered (.ok .done) ∧
    t.cluster.reachable 1 = [0, 1] ∧ InMajority {} t.cluster 1 := by
  intro t id s
  have located : t.lines[1]? = some ⟨s, some (.commit, .applying id [⟨1, 5⟩] .done)⟩ := by decide
  have applied : (t.cluster.commitPrepared 0 id [⟨1, 5⟩]).2 = .ok () := by decide
  have done : (resumeStatement (.applying id [⟨1, 5⟩] .done) t.cluster s).next = .answered (.ok .done) := by
    rw [resumeStatement, applyWrites, if_neg (by decide), finishCommit_next, applied]
    rfl
  have goesOn : GoesOn (resumeStatement (.applying id [⟨1, 5⟩] .done) t.cluster s) := by
    rw [GoesOn, done]
    rintro _ ⟨⟩
  obtain ⟨-, majority | ⟨⟨reaching, -⟩, -⟩⟩ :=
    data_needs_majority {} preparedOnTwo 1 s .commit _ located rfl (by decide) goesOn
  · exact ⟨located, done, by decide, majority⟩
  · cases reaching

def isolatedRead : List Move :=
  [.connect 0, .issue 0 (.create 3), .resume 0, .connect 2, .fault (.isolate 2), .issue 1 .total]

/-- The sum is told by one node of three. -/
theorem minority_tells_total :
    let t := run {} isolatedRead
    let s : Session := ⟨2, 0, .idle, false, []⟩
    t.lines[1]? = some ⟨s, some (.total, .reaching .total)⟩ ∧
    (resumeStatement (.reaching .total) t.cluster s).next = .answered (.ok (.total 0)) ∧
    t.cluster.reachable 2 = [2] ∧ ({} : Settings).quorum = 2 ∧ ¬ InMajority {} t.cluster 2 := by
  refine ⟨by decide, rfl, by decide, rfl, fun majority => ?_⟩
  exact absurd majority.enough (by decide)

end Traffic

end LedgerDrill.Cluster
