import LedgerDrill.Proofs.Cluster.Rows
import LedgerDrill.Workload.Alone
import Mathlib.Data.List.Perm.Subperm

namespace LedgerDrill.Cluster
open Workload

variable {c c' : Cluster} {s s' : Session} {node epoch : Nat} {id : TransactionId} {writes : List Write}
variable {reply : Reply} {answer : Answer} {statement : Statement} {changes : List Change}
variable {waits bound random elapsed : Nat}

structure Connected (c : Cluster) : Prop where
  up : ∀ node < c.size, c.holds node (·.up) = true
  links : ∀ a < c.size, ∀ b < c.size, c.links.connected a b = true

theorem lt_size {p : Replica → Bool} (holds : c.holds node p = true) : node < c.size := by
  obtain ⟨r, found, -⟩ := holds_eq_true.mp holds
  exact (List.getElem?_eq_some_iff.mp found).1

theorem Connected.alike (connected : c.Connected) (alike : Alike c c') : c'.Connected where
  up node bound := by
    rw [alike.up]
    exact connected.up node (alike.size ▸ bound)
  links a bound b bound' := by
    rw [alike.links]
    exact connected.links a (alike.size ▸ bound) b (alike.size ▸ bound')

theorem Connected.mem_reachable (connected : c.Connected) {a b : Nat} (bound : a < c.size)
    (bound' : b < c.size) : b ∈ c.reachable a :=
  Cluster.mem_reachable.mpr ⟨connected.up b bound', connected.links a bound b bound'⟩

theorem Connected.central (connected : c.Connected) (bound : node < c.size) : Central c node :=
  fun _ up _ => connected.mem_reachable (lt_size up) bound

theorem hasQuorum_of_all (reached : ∀ peer < c.size, peer ∈ c.reachable node) (some : 0 < c.size) :
    c.hasQuorum node = true := by
  have all : c.reachable node = List.range c.size := by
    refine List.filter_eq_self.mpr fun peer member => ?_
    rw [Bool.and_eq_true]
    exact mem_reachable.mp (reached peer (List.mem_range.mp member))
  rw [hasQuorum, all, List.length_range, majority, decide_eq_true_eq]
  omega

theorem Connected.hasQuorum (connected : c.Connected) (bound : node < c.size) :
    c.hasQuorum node = true :=
  hasQuorum_of_all (fun _ => connected.mem_reachable bound) (Nat.zero_lt_of_lt bound)

theorem hasQuorum_of_all_but {pivot : Nat} (several : 3 ≤ c.size)
    (reached : ∀ peer < c.size, peer ≠ pivot → peer ∈ c.reachable node) : c.hasQuorum node = true := by
  have among : (List.range c.size).erase pivot ⊆ c.reachable node := by
    intro peer member
    obtain ⟨apart, inside⟩ := List.nodup_range.mem_erase_iff.mp member
    exact reached peer (List.mem_range.mp inside) apart
  have enough := (List.subperm_of_subset (List.nodup_range.erase pivot) among).length_le
  have few : c.size - 1 ≤ ((List.range c.size).erase pivot).length := by
    rw [List.length_erase, List.length_range]
    split <;> omega
  rw [Cluster.hasQuorum, majority, decide_eq_true_eq]
  omega

theorem refresh_of_fresh (fresh : c.isFresh node = true) : c.refresh node = .ok c := by
  obtain ⟨r, found, isFresh⟩ := isFresh_eq_true.mp fresh
  have notStale : c.holds node (·.stale) = false := by
    refine holds_eq_false.mpr fun r' found' => ?_
    rw [Option.some.inj (found'.symm.trans found)]
    exact isFresh
  simp [refresh, notStale]

def Supplied (c : Cluster) (node : Nat) : Prop := ∃ donor ∈ c.reachable node, c.isFresh donor = true

theorem Connected.supplied (connected : c.Connected) (alive : c.Alive) (bound : node < c.size) :
    c.Supplied node := by
  obtain ⟨donor, isFresh⟩ := alive_iff.mp alive
  exact ⟨donor, connected.mem_reachable bound (lt_size isFresh), isFresh⟩

theorem Supplied.refresh (supplied : c.Supplied node) (quorum : c.hasQuorum node = true) :
    ∃ c', c.refresh node = .ok c' := by
  by_cases fresh : c.isFresh node = true
  · exact ⟨c, refresh_of_fresh fresh⟩
  · obtain ⟨donor, reached, isFresh⟩ := supplied
    have other : donor ≠ node := fun same => fresh (same ▸ isFresh)
    have found : (c.donor? node).isSome = true := by
      refine List.find?_isSome.mpr ⟨donor, reached, ?_⟩
      rw [Bool.and_eq_true]
      exact ⟨bne_iff_ne.mpr other, isFresh⟩
    obtain ⟨donor', located⟩ := Option.isSome_iff_exists.mp found
    unfold Cluster.refresh
    rw [quorum, located]
    split
    · exact ⟨_, rfl⟩
    · exact ⟨_, rfl⟩

/-! ## Sessions that are served -/

structure Online (c : Cluster) (s : Session) : Prop where
  quorum : c.hasQuorum s.node = true
  supplied : c.Supplied s.node
  isOpen : c.isOpen s.node s.epoch = true
  unclosed : s.closed = false

structure Serving (c : Cluster) (s : Session) : Prop where
  quorum : c.hasQuorum s.node = true
  fresh : c.isFresh s.node = true
  isOpen : c.isOpen s.node s.epoch = true
  unclosed : s.closed = false

theorem Online.serve (online : Online c s) :
    ∃ c', c.serve s.node s.epoch = .ok c' ∧ Serving c' s := by
  obtain ⟨c', refreshed⟩ := online.supplied.refresh online.quorum
  have served : c.serve s.node s.epoch = .ok c' := by rw [Cluster.serve, if_pos online.isOpen, refreshed]
  have quorum : c'.hasQuorum s.node = true := ((alike_serve served).hasQuorum s.node).trans online.quorum
  exact ⟨c', served, quorum, (serve_able served).1, isOpen_serve served, online.unclosed⟩

theorem Serving.serve (serving : Serving c s) : c.serve s.node s.epoch = .ok c := by
  rw [Cluster.serve, if_pos serving.isOpen, refresh_of_fresh serving.fresh]

theorem isOpen_modify (other : Nat) {f : Replica → Replica} (up : ∀ r, (f r).up = r.up)
    (sameEpoch : ∀ r, (f r).epoch = r.epoch) (isOpen : c.isOpen node epoch = true) :
    (c.modify other f).isOpen node epoch = true := by
  obtain ⟨r, found, isUp, inEpoch⟩ := isOpen_eq_true.mp isOpen
  refine isOpen_eq_true.mpr ⟨_, by rw [getElem?_modify, found, Option.map_some], ?_⟩
  split
  · exact ⟨(up r).trans isUp, (sameEpoch r).trans inEpoch⟩
  · exact ⟨isUp, inEpoch⟩

theorem isOpen_replicate (origin : Nat) (f : Accounts → Accounts) (isOpen : c.isOpen node epoch = true) :
    (c.replicate origin f).isOpen node epoch = true := by
  obtain ⟨r, found, isUp, inEpoch⟩ := isOpen_eq_true.mp isOpen
  refine isOpen_eq_true.mpr ⟨_, by rw [replicate, List.getElem?_mapIdx, found, Option.map_some], ?_⟩
  split <;> exact ⟨isUp, inEpoch⟩

theorem Serving.modify (serving : Serving c s) (other : Nat) {f : Replica → Replica}
    (up : ∀ r, (f r).up = r.up) (sameEpoch : ∀ r, (f r).epoch = r.epoch)
    (stale : ∀ r, r.stale = false → (f r).stale = false) : Serving (c.modify other f) s where
  quorum := ((alike_modify c other up).hasQuorum s.node).trans serving.quorum
  fresh := isFresh_modify c other stale serving.fresh
  isOpen := isOpen_modify other up sameEpoch serving.isOpen
  unclosed := serving.unclosed

theorem Serving.replicate (serving : Serving c s) (f : Accounts → Accounts) :
    Serving (c.replicate s.node f) s where
  quorum := ((alike_replicate c s.node f).hasQuorum s.node).trans serving.quorum
  fresh := isFresh_origin (up_of_isOpen serving.isOpen) serving.fresh f
  isOpen := isOpen_replicate s.node f serving.isOpen
  unclosed := serving.unclosed

theorem Serving.commitPrepared (serving : Serving c s) (home : id.node = s.node) (writes : List Write) :
    ∃ c', c.commitPrepared s.epoch id writes = (c', .ok ()) ∧ Serving c' s := by
  have forgotten : Serving (c.forget id) s :=
    serving.modify id.node (fun _ => rfl) (fun _ => rfl) fun _ fresh => fresh
  obtain ⟨r, found, fresh⟩ := isFresh_eq_true.mp forgotten.fresh
  rcases commitPrepared_cases c s.epoch id writes with ⟨lost, -⟩ | ⟨-, eq⟩ | ⟨-, -, -, eq⟩
  · rw [home, serving.isOpen] at lost
    contradiction
  · -- The transaction is aborted only on a stale node or without a majority.
    have able : ((c.forget id).holds id.node (·.stale) || !(c.forget id).hasQuorum id.node) = false := by
      rw [home, forgotten.quorum, Bool.not_true, Bool.or_false]
      exact holds_eq_false.mpr fun r' found' => Option.some.inj (found.symm.trans found') ▸ fresh
    unfold Cluster.commitPrepared at eq
    rw [home] at eq able
    simp [serving.isOpen, able] at eq
  · exact ⟨_, eq, home ▸ forgotten.replicate (·.apply writes)⟩

theorem Serving.prepare (serving : Serving c s) (home : id.node = s.node) :
    ∃ c', c.prepare s.epoch id = .ok c' ∧ Serving c' s := by
  refine ⟨c.modify id.node fun r => { r with prepared := r.prepared.insert id }, ?_, ?_⟩
  · simp only [Cluster.prepare, home, serving.serve, bind, Except.bind, serving.quorum, ↓reduceIte]
    rfl
  · exact serving.modify id.node (fun _ => rfl) (fun _ => rfl) fun _ fresh => fresh

/-! ## Statements by themselves -/

/-- A turn that is left alone is answered after at most so many waits. -/
inductive Settles (c' : Cluster) (s' : Session) (answer : Answer) : Nat → SessionTurn → Prop
  | answered (waits : Nat) : Settles c' s' answer waits (answered c' s' answer)
  | waiting {c : Cluster} {s : Session} {latency : Latency} {w : Waiting} {waits : Nat}
      (later : Settles c' s' answer waits (resumeStatement w c s)) :
      Settles c' s' answer (waits + 1) (waitingAt c s latency w)

theorem Settles.mono {turn : SessionTurn} (settles : Settles c' s' answer waits turn) (more : waits ≤ bound) :
    Settles c' s' answer bound turn := by
  induction settles generalizing bound with
  | answered => exact .answered bound
  | waiting later ih =>
      obtain ⟨extra, rfl⟩ := Nat.exists_eq_add_of_lt more
      exact .waiting (ih (Nat.le_add_right _ _))

theorem Settles.finish {turn : SessionTurn} (settles : Settles c' s' answer waits turn)
    (random elapsed : Nat) :
    ∃ elapsed', finishAlone random waits elapsed turn = ⟨c', s', answer, elapsed'⟩ := by
  induction settles generalizing elapsed with
  | answered waits => cases waits <;> exact ⟨elapsed, rfl⟩
  | waiting later ih => exact ih _

theorem Settles.alone (settles : Settles c' s' answer waits (startStatement statement c s))
    (enough : waits ≤ Turn.waits (startStatement statement c s)) (random : Nat) :
    ∃ elapsed, runAlone random statement c s = ⟨c', s', answer, elapsed⟩ :=
  (settles.mono enough).finish random 0

theorem Serving.settles_applyTorn (serving : Serving c s) (home : id.node = s.node) (writes : List Write)
    (reply : Reply) : ∃ c', Settles c' s.endCommit (.ok reply) writes.length (applyTorn c s id writes reply) := by
  induction writes generalizing c with
  | nil => exact ⟨c, .answered 0⟩
  | cons write rest ih =>
      obtain ⟨c', applied, serving'⟩ := serving.commitPrepared home [write]
      simp only [applyTorn, applied]
      cases rest with
      | nil => exact ⟨c', .answered 1⟩
      | cons next rest =>
          obtain ⟨last, settles⟩ := ih serving'
          exact ⟨last, .waiting settles⟩

theorem Serving.settles_applyWrites (serving : Serving c s) (home : id.node = s.node) (writes : List Write)
    (reply : Reply) :
    ∃ c', Settles c' s.endCommit (.ok reply) writes.length (applyWrites c s id writes reply) := by
  unfold applyWrites
  split
  · exact serving.settles_applyTorn home writes reply
  · obtain ⟨c', applied, -⟩ := serving.commitPrepared home writes
    rw [applied]
    exact ⟨c', .answered writes.length⟩

theorem Serving.settles_preparing (serving : Serving c s) (home : id.node = s.node) (writes : List Write)
    (reply : Reply) : ∃ c', Settles c' s.endCommit (.ok reply) (writes.length + 1)
      (resumeStatement (.preparing id writes reply) c s) := by
  obtain ⟨prepared, step, serving'⟩ := serving.prepare home
  obtain ⟨c', settles⟩ := serving'.settles_applyWrites home writes reply
  simp only [resumeStatement, step]
  split
  · exact ⟨c', .waiting settles⟩
  · exact ⟨c', settles.mono (Nat.le_succ _)⟩

theorem Serving.settles_beginCommit (serving : Serving c s) (writes : List Write) (reply : Reply) :
    ∃ c', Settles c' s.endCommit (.ok reply) (writes.length + 2) (beginCommit c s writes reply) := by
  have numbered : Serving c.takeNumber.2 s :=
    ⟨serving.quorum, serving.fresh, serving.isOpen, serving.unclosed⟩
  have home : TransactionId.node ⟨s.node, c.nextNumber, s.epoch⟩ = s.node := rfl
  obtain ⟨c', settles⟩ := numbered.settles_preparing home writes reply
  exact ⟨c', .waiting settles⟩

theorem Online.settles_execute (online : Online c s) (reads : readsAccounts statement = true) :
    ∃ c' s' reply, Settles c' s' (.ok reply) 4 (execute c s statement) := by
  obtain ⟨served, step, serving⟩ := online.serve
  have known := executes c s statement
  generalize execute c s statement = turn at known
  cases known with
  | refused _ error => cases step.symm.trans error
  | counts | lost | rollsBack | ends => cases reads
  | begins | misses | buffers | totals | digests | creates => exact ⟨_, _, _, .answered 4⟩
  | offline again alone =>
      cases step.symm.trans again
      cases serving.quorum.symm.trans alone
  | commits again =>
      cases step.symm.trans again
      obtain ⟨c', settles⟩ := serving.settles_beginCommit [_] (.rows 1)
      exact ⟨c', _, _, settles.mono (Nat.le_succ 3)⟩

theorem start_of_able (unclosed : s.closed = false) (able : s.status ≠ .inError) (notCommit : statement ≠ .commit)
    (c : Cluster) :
    startStatement statement c s = waitingAt c s c.settings.roundTrip (.reaching statement) := by
  have known := starts statement c s
  generalize startStatement statement c s = turn at known
  cases known with
  | closed isClosed => cases unclosed.symm.trans isClosed
  | refused _ broken _ => contradiction
  | idle | gaveUp | commits => contradiction
  | sends => rfl

theorem Settles.sent (settles : Settles c' s' answer 4 (execute c s statement)) (unclosed : s.closed = false)
    (able : s.status ≠ .inError) (notCommit : statement ≠ .commit) (random : Nat) :
    ∃ elapsed, runAlone random statement c s = ⟨c', s', answer, elapsed⟩ := by
  have sent := start_of_able unclosed able notCommit c
  have starts : Settles c' s' answer 5 (startStatement statement c s) := sent ▸ .waiting settles
  exact starts.alone (sent ▸ Nat.le_refl 5) random

theorem Online.reads (online : Online c s) (able : s.status ≠ .inError)
    (isRead : readsAccounts statement = true) (random : Nat) :
    ∃ c' s' reply elapsed, runAlone random statement c s = ⟨c', s', .ok reply, elapsed⟩ := by
  obtain ⟨c', s', reply, settles⟩ := online.settles_execute isRead
  have notCommit : statement ≠ .commit := fun same => by
    rw [same] at isRead
    cases isRead
  obtain ⟨elapsed, done⟩ := settles.sent online.unclosed able notCommit random
  exact ⟨c', s', reply, elapsed, done⟩

theorem execute_total (served : c.serve s.node s.epoch = .ok c') (faithful : Ledger.Faithful ⟨c, changes⟩) :
    execute c s .total = answered c' s (.ok (.total (tableOf changes).total)) := by
  rw [← faithful.accountsOf served]
  simp [execute, Cluster.total, served, bind, Except.bind, pure, Except.pure]

theorem execute_digest (served : c.serve s.node s.epoch = .ok c') (faithful : Ledger.Faithful ⟨c, changes⟩) :
    execute c s .digest = answered c' s (.ok (.digest (tableOf changes).digest)) := by
  rw [← faithful.accountsOf served]
  simp [execute, Cluster.digest, served, bind, Except.bind, pure, Except.pure]

theorem Online.told (online : Online c s) (able : s.status ≠ .inError)
    (told : ∀ served, c.serve s.node s.epoch = .ok served → execute c s statement = answered served s answer)
    (notCommit : statement ≠ .commit) (random : Nat) : (runAlone random statement c s).answer = answer := by
  obtain ⟨served, step, -⟩ := online.serve
  have settles : Settles served s answer 4 (execute c s statement) := told served step ▸ .answered 4
  obtain ⟨elapsed, done⟩ := settles.sent online.unclosed able notCommit random
  rw [done]

theorem Online.total (online : Online c s) (able : s.status ≠ .inError)
    (faithful : Ledger.Faithful ⟨c, changes⟩) (random : Nat) :
    (runAlone random .total c s).answer = .ok (.total (tableOf changes).total) :=
  online.told able (fun _ served => execute_total served faithful) nofun random

theorem Online.digest (online : Online c s) (able : s.status ≠ .inError)
    (faithful : Ledger.Faithful ⟨c, changes⟩) (random : Nat) :
    (runAlone random .digest c s).answer = .ok (.digest (tableOf changes).digest) :=
  online.told able (fun _ served => execute_digest served faithful) nofun random

/-! ## Transactions by themselves -/

def transaction (updates : List Write) : List Statement :=
  .begin :: (updates.map fun update => .add update.uid update.delta) ++ [.commit]

theorem runAllAlone_cons {reply : Reply} {rest : List Statement} {last : Answer}
    (first : runAlone random statement c s = ⟨c', s', .ok reply, bound⟩)
    (checked : checkReply statement reply = .ok reply) :
    runAllAlone random (statement :: rest) ⟨c, s, last, elapsed⟩ =
      runAllAlone random rest ⟨c', s', .ok reply, elapsed + bound⟩ := by
  simp only [runAllAlone, first, Except.bind, checked]

theorem Serving.commit (serving : Serving c s) (inside : s.status = .inTransaction) (random : Nat) :
    ∃ c' s' elapsed, runAlone random .commit c s = ⟨c', s', .ok .done, elapsed⟩ := by
  have begun : startStatement .commit c s = beginCommit c { s with writes := [] } s.writes .done := by
    simp [startStatement, serving.unclosed, inside]
  have serving' : Serving c { s with writes := [] } :=
    ⟨serving.quorum, serving.fresh, serving.isOpen, serving.unclosed⟩
  obtain ⟨c', settles⟩ := serving'.settles_beginCommit s.writes .done
  rw [← begun] at settles
  obtain ⟨elapsed, done⟩ := settles.alone (begun ▸ Nat.le_succ _) random
  exact ⟨c', _, elapsed, done⟩

theorem Serving.updates (serving : Serving c s) (inside : s.status = .inTransaction) {updates : List Write}
    (rows : ∀ update ∈ updates, (c.accountsOf s.node).contains update.uid = true) (random : Nat)
    (last : Answer) (elapsed : Nat) :
    (runAllAlone random ((updates.map fun update => .add update.uid update.delta) ++ [.commit])
      ⟨c, s, last, elapsed⟩).answer = .ok .done := by
  induction updates generalizing s last elapsed with
  | nil =>
      obtain ⟨c', s', took, done⟩ := serving.commit inside random
      rw [List.map_nil, List.nil_append, runAllAlone_cons done rfl]
      rfl
  | cons update rest ih =>
      obtain ⟨uid, delta⟩ := update
      have row : (c.accountsOf s.node).contains uid = true := rows _ List.mem_cons_self
      have reached : execute c s (.add uid delta) =
          answered c { s with writes := s.writes ++ [⟨uid, delta⟩] } (.ok (.rows 1)) := by
        simp [execute, rowExists, serving.serve, bind, Except.bind, pure, Except.pure, row, inside]
      have settles : Settles c { s with writes := s.writes ++ [⟨uid, delta⟩] } (.ok (.rows 1)) 4
          (execute c s (.add uid delta)) := reached ▸ .answered 4
      have able : s.status ≠ .inError := by
        rw [inside]
        rintro ⟨⟩
      have notCommit : Statement.add uid delta ≠ .commit := by rintro ⟨⟩
      obtain ⟨took, done⟩ := settles.sent serving.unclosed able notCommit random
      have serving' : Serving c { s with writes := s.writes ++ [⟨uid, delta⟩] } :=
        ⟨serving.quorum, serving.fresh, serving.isOpen, serving.unclosed⟩
      rw [List.map_cons, List.cons_append, runAllAlone_cons done rfl]
      exact ih serving' inside (fun update member => rows update (List.mem_cons_of_mem _ member)) _ _

theorem Online.transaction (online : Online c s) (able : s.status ≠ .inError)
    {updates : List Write} (rowed : c.Rowed fun uid => ∃ update ∈ updates, update.uid = uid) (random : Nat) :
    (runAllAlone random (Cluster.transaction updates) ⟨c, s, .ok .done, 0⟩).answer = .ok .done := by
  obtain ⟨served, step, serving⟩ := online.serve
  have reached : execute c s .begin =
      answered served { s with writes := [], status := .inTransaction } (.ok .done) := by
    simp [execute, rowExists, step, bind, Except.bind, pure, Except.pure]
  have settles : Settles served { s with writes := [], status := .inTransaction } (.ok .done) 4
      (execute c s .begin) := reached ▸ .answered 4
  have notCommit : Statement.begin ≠ .commit := by rintro ⟨⟩
  obtain ⟨took, done⟩ := settles.sent online.unclosed able notCommit random
  have serving' : Serving served { s with writes := [], status := .inTransaction } :=
    ⟨serving.quorum, serving.fresh, serving.isOpen, serving.unclosed⟩
  rw [Cluster.transaction, List.cons_append, runAllAlone_cons done rfl]
  exact serving'.updates rfl (fun update member => rowed.accountsOf step ⟨update, member, rfl⟩) random _ _

/-! ## New sessions -/

theorem Supplied.accept (supplied : c.Supplied node) (up : c.holds node (·.up) = true)
    (quorum : c.hasQuorum node = true) :
    ∃ s, (Store.accept c node).2 = .ok s ∧ s.node = node ∧ s.status = .idle ∧ Online c s := by
  obtain ⟨r, found, isUp⟩ := holds_eq_true.mp up
  have opened : c.openSession node = .ok r.epoch := by simp [openSession, found, isUp]
  refine ⟨⟨node, r.epoch, .idle, false, []⟩, ?_, rfl, rfl, quorum, supplied, ?_, rfl⟩
  · change (c.openSession node).map _ = _
    rw [opened]
    rfl
  · exact isOpen_eq_true.mpr ⟨r, found, isUp, rfl⟩

theorem Connected.accept (connected : c.Connected) (alive : c.Alive) (bound : node < c.size) :
    ∃ s, (Store.accept c node).2 = .ok s ∧ s.node = node ∧ s.status = .idle ∧ Online c s :=
  (connected.supplied alive bound).accept (connected.up node bound) (connected.hasQuorum bound)

end LedgerDrill.Cluster
