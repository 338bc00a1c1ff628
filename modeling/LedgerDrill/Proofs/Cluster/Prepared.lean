import LedgerDrill.Proofs.Cluster.Outage
import LedgerDrill.Proofs.Cluster.Statements
import LedgerDrill.Proofs.Cluster.Traffic

namespace LedgerDrill.Cluster

variable {c c' c'' : Cluster} {s : Session} {node epoch : Nat} {id : TransactionId} {writes : List Write}
variable {reply : Reply} {e : StoreError} {inFlight : TransactionId → Prop}

/-! ## Nothing more is prepared -/

structure Thins (c c' : Cluster) : Prop where
  number : c.nextNumber ≤ c'.nextNumber
  replicas : ∀ (node : Nat) (r' : Replica), c'.replicas[node]? = some r' → r'.up = true →
    r'.prepared = [] ∨ ∃ r, c.replicas[node]? = some r ∧ r.up = true ∧ r'.epoch = r.epoch ∧
      r'.prepared.Sublist r.prepared

theorem Thins.refl (c : Cluster) : Thins c c :=
  ⟨Nat.le_refl _, fun _ r found up => Or.inr ⟨r, found, up, rfl, .refl _⟩⟩

theorem Thins.trans (first : Thins c c') (second : Thins c' c'') : Thins c c'' := by
  refine ⟨Nat.le_trans first.number second.number, ?_⟩
  intro node r'' found'' up''
  rcases second.replicas node r'' found'' up'' with none | ⟨r', found', up', epoch', fewer'⟩
  · exact Or.inl none
  · rcases first.replicas node r' found' up' with none | ⟨r, found, up, epoch, fewer⟩
    · exact Or.inl (List.sublist_nil.mp (none ▸ fewer'))
    · exact Or.inr ⟨r, found, up, epoch'.trans epoch, fewer'.trans fewer⟩

theorem thins_modify (c : Cluster) (node : Nat) {f : Replica → Replica}
    (thins : ∀ r, (f r).up = true → (f r).prepared = [] ∨
      r.up = true ∧ (f r).epoch = r.epoch ∧ (f r).prepared.Sublist r.prepared) :
    Thins c (c.modify node f) := by
  refine ⟨Nat.le_refl _, ?_⟩
  intro other r' found up
  rw [getElem?_modify] at found
  obtain ⟨r, before, rfl⟩ := Option.map_eq_some_iff.mp found
  split at up
  · next same =>
      rw [if_pos same]
      exact (thins r up).imp_right fun kept => ⟨r, before, kept⟩
  · next different =>
      rw [if_neg different]
      exact Or.inr ⟨r, before, up, rfl, .refl _⟩

theorem thins_serve (served : c.serve node epoch = .ok c') : Thins c c' := by
  rcases refresh_eq_ok (serve_eq_ok served).2 with ⟨rfl, -⟩ | ⟨donor, -, -, rfl⟩
  · exact Thins.refl _
  · exact thins_modify c node fun r up => Or.inr ⟨up, rfl, .refl _⟩

theorem thins_forget (c : Cluster) (id : TransactionId) : Thins c (c.forget id) :=
  thins_modify c id.node fun _ up => Or.inr ⟨up, rfl, List.erase_sublist⟩

theorem thins_replicate (c : Cluster) (origin : Nat) (f : Accounts → Accounts) :
    Thins c (c.replicate origin f) := by
  refine ⟨Nat.le_refl _, ?_⟩
  intro node r' found up
  simp only [replicate, List.getElem?_mapIdx] at found
  obtain ⟨r, before, rfl⟩ := Option.map_eq_some_iff.mp found
  split at up
  · next reached =>
      rw [if_pos reached]
      exact Or.inr ⟨r, before, up, rfl, .refl _⟩
  · next missed =>
      rw [if_neg missed]
      exact Or.inr ⟨r, before, up, rfl, .refl _⟩

theorem thins_commitPrepared (c : Cluster) (epoch : Nat) (id : TransactionId) (writes : List Write) :
    Thins c (c.commitPrepared epoch id writes).1 := by
  rcases commitPrepared_cases c epoch id writes with ⟨_, eq⟩ | ⟨_, eq⟩ | ⟨_, _, _, eq⟩ <;> rw [eq]
  · exact Thins.refl c
  · exact thins_forget c id
  · exact (thins_forget c id).trans (thins_replicate (c.forget id) id.node (·.apply writes))

theorem thins_finishCommit (c : Cluster) (s : Session) (id : TransactionId) (reply : Reply)
    (result : Except StoreError Unit) : Thins c (finishCommit c s id reply result).store := by
  cases result with
  | ok done => exact Thins.refl c
  | error e =>
      cases e with
      | query text => exact thins_forget c id
      | connectFailed | connectionClosed | inFailedTransaction | noTransaction | rowCount | tooFewAccounts =>
          exact Thins.refl c

theorem thins_puts {torn : Bool} {turn : SessionTurn} (puts : Puts c s id reply torn writes turn) :
    Thins c turn.store := by
  cases puts with
  | nothing => exact Thins.refl c
  | next => exact thins_commitPrepared c s.epoch id _
  | last | whole => exact (thins_commitPrepared c s.epoch id _).trans (thins_finishCommit _ s id reply _)

theorem thins_beginCommit (c : Cluster) (s : Session) (writes : List Write) (reply : Reply) :
    Thins c (beginCommit c s writes reply).store :=
  ⟨Nat.le_succ _, (Thins.refl c).replicas⟩

theorem thins_execute (c : Cluster) (s : Session) (statement : Statement) :
    Thins c (execute c s statement).store := by
  have known := executes c s statement
  generalize execute c s statement = turn at known
  cases known with
  | refused | offline | counts | lost | rollsBack | ends => exact Thins.refl c
  | begins served | misses served | buffers served | totals served | digests served =>
      exact thins_serve served
  | commits served => exact (thins_serve served).trans (thins_beginCommit _ s _ _)
  | @creates c' n served => exact (thins_serve served).trans (thins_replicate c' s.node fun _ => .seed n)

theorem thins_start (statement : Statement) (c : Cluster) (s : Session) :
    Thins c (startStatement statement c s).store := by
  have known := starts statement c s
  generalize startStatement statement c s = turn at known
  cases known with
  | closed | refused | idle | gaveUp | sends => exact Thins.refl c
  | commits => exact thins_beginCommit c _ _ _

theorem thins_inject (fault : Fault) (c : Cluster) : Thins c (inject fault c).1 := by
  unfold inject
  split
  · exact Thins.refl c
  · cases fault with
    | crash node | shutdown node => exact thins_modify c node fun _ up => (by cases up)
    | start node => exact thins_modify c node fun _ _ => Or.inl rfl
    | isolate _ | heal _ | cut _ _ | restore _ _ => exact ⟨Nat.le_refl _, (Thins.refl c).replicas⟩

/-! ## Transactions in flight -/

/-- What is prepared on a node that is up was prepared there in its epoch, and is in flight. -/
def Owns (c : Cluster) (inFlight : TransactionId → Prop) : Prop :=
  ∀ (node : Nat) (r : Replica), c.replicas[node]? = some r → r.up = true →
    r.prepared.Nodup ∧ ∀ id ∈ r.prepared, id.node = node ∧ id.epoch = r.epoch ∧ inFlight id

theorem Owns.thin (owns : Owns c inFlight) (thins : Thins c c') : Owns c' inFlight := by
  intro node r' found' up'
  rcases thins.replicas node r' found' up' with none | ⟨r, found, up, epoch, fewer⟩
  · rw [none]
    exact ⟨List.nodup_nil, fun _ => nofun⟩
  · obtain ⟨nodup, known⟩ := owns node r found up
    exact ⟨fewer.nodup nodup, fun id member => epoch ▸ known id (fewer.subset member)⟩

theorem Owns.imp {inFlight' : TransactionId → Prop} (owns : Owns c inFlight)
    (imp : ∀ id, inFlight id → inFlight' id) : Owns c inFlight' := by
  intro node r found up
  obtain ⟨nodup, known⟩ := owns node r found up
  exact ⟨nodup, fun id member => (known id member).imp_right (And.imp_right (imp id))⟩

theorem isOpen_serve (served : c.serve node epoch = .ok c') : c'.isOpen node epoch = true := by
  obtain ⟨isOpen, refreshed⟩ := serve_eq_ok served
  obtain ⟨r, found, up, same⟩ := isOpen_eq_true.mp isOpen
  rcases refresh_eq_ok refreshed with ⟨rfl, -⟩ | ⟨donor, -, -, rfl⟩
  · exact isOpen
  · refine isOpen_eq_true.mpr ⟨{ r with accounts := c.accountsOf donor, stale := false }, ?_, up, same⟩
    rw [getElem?_modify, found, Option.map_some, if_pos rfl]

theorem Owns.prepare (owns : Owns c inFlight) (prepared : c.prepare id.epoch id = .ok c') :
    Owns c' fun other => inFlight other ∨ other = id := by
  obtain ⟨served, step, -, rfl⟩ := prepare_eq_ok prepared
  obtain ⟨home, located, -, sameEpoch⟩ := isOpen_eq_true.mp (isOpen_serve step)
  intro node r' found up
  rw [getElem?_modify] at found
  obtain ⟨r, before, rfl⟩ := Option.map_eq_some_iff.mp found
  by_cases same : id.node = node
  · subst same
    obtain rfl := Option.some.inj (located.symm.trans before)
    rw [if_pos rfl] at up
    obtain ⟨nodup, known⟩ := owns.thin (thins_serve step) id.node home before up
    rw [if_pos rfl]
    refine ⟨nodup.insert, fun other member => ?_⟩
    rcases List.mem_insert_iff.mp member with rfl | member
    · exact ⟨rfl, sameEpoch.symm, Or.inr rfl⟩
    · exact (known other member).imp_right (And.imp_right Or.inl)
  · rw [if_neg same] at up ⊢
    obtain ⟨nodup, known⟩ := owns.thin (thins_serve step) node r before up
    exact ⟨nodup, fun other member => (known other member).imp_right (And.imp_right Or.inl)⟩

theorem Owns.forget (owns : Owns c inFlight) (id : TransactionId) :
    Owns (c.forget id) fun other => inFlight other ∧ other ≠ id := by
  intro node r' found up
  rw [Cluster.forget, getElem?_modify] at found
  obtain ⟨r, before, rfl⟩ := Option.map_eq_some_iff.mp found
  by_cases same : id.node = node
  · rw [if_pos same] at up ⊢
    obtain ⟨nodup, known⟩ := owns node r before up
    refine ⟨nodup.erase id, fun other member => ?_⟩
    obtain ⟨ne, member⟩ := (nodup.mem_erase_iff).mp member
    exact (known other member).imp_right (And.imp_right (⟨·, ne⟩))
  · rw [if_neg same] at up ⊢
    obtain ⟨nodup, known⟩ := owns node r before up
    refine ⟨nodup, fun other member => ?_⟩
    have here := (known other member).1
    exact (known other member).imp_right (And.imp_right (⟨·, fun eq => same (eq ▸ here)⟩))

theorem Owns.commitPrepared (owns : Owns c inFlight) (sameEpoch : id.epoch = s.epoch) (writes : List Write) :
    Owns (c.commitPrepared s.epoch id writes).1 fun other => inFlight other ∧ other ≠ id := by
  rcases commitPrepared_cases c s.epoch id writes with ⟨lost, eq⟩ | ⟨_, eq⟩ | ⟨_, _, _, eq⟩ <;> rw [eq]
  · -- A node that is up in another epoch has forgotten the transaction already.
    intro node r found up
    obtain ⟨nodup, known⟩ := owns node r found up
    refine ⟨nodup, fun other member => ?_⟩
    obtain ⟨here, inEpoch, flies⟩ := known other member
    refine ⟨here, inEpoch, flies, ?_⟩
    rintro rfl
    have isOpen : c.isOpen other.node s.epoch = true :=
      isOpen_eq_true.mpr ⟨r, here ▸ found, up, inEpoch.symm.trans sameEpoch⟩
    rw [isOpen] at lost
    contradiction
  · exact owns.forget id
  · exact (owns.forget id).thin (thins_replicate (c.forget id) id.node (·.apply writes))

theorem owns_new (settings : Settings) : Owns (new settings) inFlight := by
  intro node r found _
  simp only [new, List.getElem?_replicate] at found
  split at found
  · cases found
    exact ⟨List.nodup_nil, fun _ member => absurd member List.not_mem_nil⟩
  · cases found

/-- The second phase of a commit leaves nothing of it behind, even if it is torn, as long as there is
something to write. -/
theorem Owns.puts {torn : Bool} {turn : SessionTurn} (owns : Owns c inFlight) (ready : torn = false ∨ writes ≠ [])
    (sameEpoch : id.epoch = s.epoch) (puts : Puts c s id reply torn writes turn) :
    Owns turn.store fun other => inFlight other ∧ other ≠ id := by
  cases puts with
  | nothing => exact absurd rfl (ready.resolve_left nofun)
  | next => exact owns.commitPrepared sameEpoch _
  | last | whole => exact (owns.commitPrepared sameEpoch _).thin (thins_finishCommit _ s id reply _)

/-! ## Steps of a session -/

/-- The transaction of a commit that waits. -/
def Waiting.id? : Waiting → Option TransactionId
  | .reaching _ => none
  | .preparing id .. | .applying id .. | .tearing id .. => some id

/-- The transaction of a commit that waits between its two phases. -/
def Waiting.prepared? : Waiting → Option TransactionId
  | .applying id .. => some id
  | _ => none

def Waiting.Loaded : Waiting → Prop
  | .reaching _ => True
  | .preparing _ writes _ | .applying _ writes _ | .tearing _ writes _ => writes ≠ []

theorem Carries.loaded {w : Waiting} (carries : Carries node w) : w.Loaded := by
  cases carries <;> assumption

theorem owns_resume {w : Waiting} (owns : Owns c inFlight) (ready : c.settings.torn = false ∨ w.Loaded)
    (own : ∀ id, w.id? = some id → id.epoch = s.epoch) :
    Owns (resumeStatement w c s).store fun id => (inFlight id ∧ w.prepared? ≠ some id) ∨
      ∃ latency w', (resumeStatement w c s).next = .waiting latency w' ∧ w'.prepared? = some id := by
  have known := resumes w c s
  generalize resumeStatement w c s = turn at known
  cases known with
  | reaching statement =>
      exact (owns.thin (thins_execute c s statement)).imp fun _ flies => Or.inl ⟨flies, nofun⟩
  | tearing puts => exact (owns.thin (thins_puts puts)).imp fun _ flies => Or.inl ⟨flies, nofun⟩
  | @applying id _ _ _ puts =>
      refine (owns.puts ready (own id rfl) puts).imp fun other flies => Or.inl ⟨flies.1, ?_⟩
      exact fun same => flies.2 (Option.some.inj same).symm
  | refused => exact owns.imp fun _ flies => Or.inl ⟨flies, nofun⟩
  | @prepared id _ _ _ prepared =>
      have added : Owns _ fun other => inFlight other ∨ other = id := owns.prepare (own id rfl ▸ prepared)
      refine added.imp fun other flies => flies.imp (⟨·, nofun⟩) ?_
      rintro rfl
      exact ⟨_, _, rfl, rfl⟩
  | @goesOn id writes _ c' _ prepared puts =>
      have added : Owns c' fun other => inFlight other ∨ other = id := owns.prepare (own id rfl ▸ prepared)
      have ready' : c'.settings.torn = false ∨ writes ≠ [] := by
        rw [(keeps_prepare prepared).settings]
        exact ready
      refine (added.puts ready' (own id rfl) puts).imp fun other flies => ?_
      exact Or.inl ⟨flies.1.resolve_right flies.2, nofun⟩

theorem number_prepare (prepared : c.prepare epoch id = .ok c') : c.nextNumber ≤ c'.nextNumber := by
  obtain ⟨served, step, -, rfl⟩ := prepare_eq_ok prepared
  exact (thins_serve step).number

theorem number_resume (w : Waiting) (c : Cluster) (s : Session) :
    c.nextNumber ≤ (resumeStatement w c s).store.nextNumber := by
  have known := resumes w c s
  generalize resumeStatement w c s = turn at known
  cases known with
  | reaching statement => exact (thins_execute c s statement).number
  | refused => exact Nat.le_refl _
  | prepared prepared => exact number_prepare prepared
  | goesOn prepared puts => exact Nat.le_trans (number_prepare prepared) (thins_puts puts).number
  | applying puts | tearing puts => exact (thins_puts puts).number

/-- A session stays in its epoch, and a commit that goes on keeps its transaction. That of a commit that
begins has a number which no other has taken. -/
structure Names (c : Cluster) (s : Session) (own? : Option TransactionId) (turn : SessionTurn) : Prop where
  epoch : turn.session.epoch = s.epoch
  next : ∀ latency w id, turn.next = .waiting latency w → w.id? = some id → own? = some id ∨
    id.node = s.node ∧ id.epoch = s.epoch ∧ c.nextNumber ≤ id.number ∧ id.number < turn.store.nextNumber

theorem epoch_fail (s : Session) (e : StoreError) : (s.fail e).epoch = s.epoch := by
  unfold Session.fail
  split
  · rfl
  · rfl
  · split <;> rfl

theorem epoch_endCommit (s : Session) : s.endCommit.epoch = s.epoch := by
  unfold Session.endCommit
  split <;> rfl

variable {own? : Option TransactionId}

theorem names_failed (c c' : Cluster) (s : Session) (own? : Option TransactionId) (e : StoreError) :
    Names c s own? (failed c' s e) :=
  ⟨epoch_fail s e, fun _ _ _ => nofun⟩

theorem names_beginCommit (number : c.nextNumber ≤ c'.nextNumber) (s : Session) (writes writes' : List Write)
    (reply : Reply) : Names c s own? (beginCommit c' { s with writes := writes' } writes reply) := by
  refine ⟨rfl, ?_⟩
  rintro _ _ _ ⟨⟩ ⟨⟩
  exact Or.inr ⟨rfl, rfl, number, Nat.lt_succ_self _⟩

theorem names_finishCommit (c c' : Cluster) (s : Session) (id : TransactionId) (reply : Reply)
    (result : Except StoreError Unit) : Names c s own? (finishCommit c' s id reply result) := by
  cases result with
  | ok done => exact ⟨epoch_endCommit s, fun _ _ _ => nofun⟩
  | error e => exact ⟨(epoch_endCommit _).trans (epoch_fail s e), fun _ _ _ => nofun⟩

theorem names_puts {torn : Bool} {turn : SessionTurn} (c : Cluster) (puts : Puts c' s id reply torn writes turn) :
    Names c s (some id) turn := by
  cases puts with
  | nothing => exact ⟨epoch_endCommit s, fun _ _ _ => nofun⟩
  | next =>
      refine ⟨rfl, ?_⟩
      rintro _ _ _ ⟨⟩ ⟨⟩
      exact Or.inl rfl
  | last | whole => exact names_finishCommit c _ s id reply _

theorem names_execute (c : Cluster) (s : Session) (statement : Statement) :
    Names c s own? (execute c s statement) := by
  have known := executes c s statement
  generalize execute c s statement = turn at known
  cases known with
  | refused | offline | lost => exact names_failed c c s own? _
  | begins | misses | buffers | totals | digests | creates | counts | rollsBack | ends =>
      exact ⟨rfl, fun _ _ _ => nofun⟩
  | commits served => exact names_beginCommit (thins_serve served).number s _ s.writes _

theorem names_resume (w : Waiting) (c : Cluster) (s : Session) :
    Names c s w.id? (resumeStatement w c s) := by
  have known := resumes w c s
  generalize resumeStatement w c s = turn at known
  cases known with
  | reaching statement => exact names_execute c s statement
  | refused => exact ⟨(epoch_endCommit _).trans (epoch_fail s _), fun _ _ _ => nofun⟩
  | prepared =>
      refine ⟨rfl, ?_⟩
      rintro _ _ _ ⟨⟩ ⟨⟩
      exact Or.inl rfl
  | goesOn _ puts | applying puts | tearing puts => exact names_puts c puts

theorem names_start (statement : Statement) (c : Cluster) (s : Session) :
    Names c s none (startStatement statement c s) := by
  have known := starts statement c s
  generalize startStatement statement c s = turn at known
  cases known with
  | closed | refused | idle | gaveUp => exact ⟨rfl, fun _ _ _ => nofun⟩
  | commits => exact names_beginCommit (Nat.le_refl _) s _ [] _
  | sends => exact ⟨rfl, by rintro _ _ _ ⟨⟩ ⟨⟩⟩

/-! ## Sessions in any order -/

def Line.id? (line : Line) : Option TransactionId := line.pending.bind (·.2.id?)

def Line.prepared? (line : Line) : Option TransactionId := line.pending.bind (·.2.prepared?)

theorem session_ofTurn (statement : Statement) (turn : SessionTurn) :
    (Line.ofTurn statement turn).session = turn.session := by
  unfold Line.ofTurn
  split <;> rfl

theorem ofTurn_id? {statement : Statement} {turn : SessionTurn}
    (carries : (Line.ofTurn statement turn).id? = some id) :
    ∃ latency w, turn.next = .waiting latency w ∧ w.id? = some id := by
  unfold Line.ofTurn at carries
  split at carries
  · cases carries
  · next latency w next => exact ⟨latency, w, next, carries⟩

theorem id?_of_prepared? {line : Line} (waits : line.prepared? = some id) : line.id? = some id := by
  obtain ⟨⟨statement, w⟩, pending, prepared⟩ := Option.bind_eq_some_iff.mp waits
  refine Option.bind_eq_some_iff.mpr ⟨_, pending, ?_⟩
  cases w with
  | applying => exact prepared
  | reaching | preparing | tearing => cases prepared

namespace Traffic

/-- Every commit under way has a transaction of its own, and whatever is prepared on a node that is up is
the transaction of one of them. -/
structure Kept (t : Traffic) : Prop where
  owns : Owns t.cluster fun id => ∃ (i : Nat) (line : Line), t.lines[i]? = some line ∧ line.prepared? = some id
  named : ∀ (i : Nat) (line : Line) (id : TransactionId), t.lines[i]? = some line → line.id? = some id →
    id.node = line.session.node ∧ id.epoch = line.session.epoch ∧ id.number < t.cluster.nextNumber
  apart : ∀ (i j : Nat) (line other : Line) (id : TransactionId), t.lines[i]? = some line →
    t.lines[j]? = some other → line.id? = some id → other.id? = some id → i = j

variable {t : Traffic}

theorem Kept.take (kept : t.Kept) {i : Nat} {line : Line} (found : t.lines[i]? = some line)
    {statement : Statement} {calls : List Call} {turn : SessionTurn}
    (node : turn.session.node = line.session.node)
    (names : Names t.cluster line.session line.id? turn)
    (number : t.cluster.nextNumber ≤ turn.store.nextNumber)
    (owns : Owns turn.store fun id =>
      ((∃ (j : Nat) (other : Line), t.lines[j]? = some other ∧ other.prepared? = some id) ∧
        line.prepared? ≠ some id) ∨ (Line.ofTurn statement turn).prepared? = some id) :
    (t.take i statement calls turn).Kept := by
  have carried {id : TransactionId} (carries : (Line.ofTurn statement turn).id? = some id) :
      line.id? = some id ∨ id.node = line.session.node ∧ id.epoch = line.session.epoch ∧
        t.cluster.nextNumber ≤ id.number ∧ id.number < turn.store.nextNumber := by
    obtain ⟨latency, w, next, own⟩ := ofTurn_id? carries
    exact names.next latency w id next own
  -- A number that was just taken is above those of all commits that were under way before.
  have alone {j : Nat} {other : Line} {id : TransactionId} (ne : i ≠ j) (located : t.lines[j]? = some other)
      (carries : (Line.ofTurn statement turn).id? = some id) (carries' : other.id? = some id) : False := by
    rcases carried carries with before | ⟨-, -, fresh, -⟩
    · exact ne (kept.apart i j line other id found located before carries')
    · exact absurd (kept.named j other id located carries').2.2 (Nat.not_lt.mpr fresh)
  refine ⟨?_, ?_, ?_⟩
  · refine owns.imp ?_
    rintro id (⟨⟨j, other, located, waits⟩, ended⟩ | waits)
    · have apart : i ≠ j := by
        rintro rfl
        exact ended (Option.some.inj (found.symm.trans located) ▸ waits)
      exact ⟨j, other, (List.getElem?_set_ne apart).trans located, waits⟩
    · exact ⟨i, _, List.getElem?_set_self (List.getElem?_eq_some_iff.mp found).1, waits⟩
  · intro j other id located carries
    rcases lines_take located with ⟨rfl, rfl⟩ | ⟨-, before⟩
    · rw [session_ofTurn, node, names.epoch]
      rcases carried carries with before | ⟨here, inEpoch, -, below⟩
      · obtain ⟨here, inEpoch, below⟩ := kept.named i line id found before
        exact ⟨here, inEpoch, Nat.lt_of_lt_of_le below number⟩
      · exact ⟨here, inEpoch, below⟩
    · obtain ⟨here, inEpoch, below⟩ := kept.named j other id before carries
      exact ⟨here, inEpoch, Nat.lt_of_lt_of_le below number⟩
  · intro j k first second id located located' carries carries'
    rcases lines_take located with ⟨rfl, rfl⟩ | ⟨apart, before⟩ <;>
      rcases lines_take located' with ⟨same, rfl⟩ | ⟨apart', before'⟩
    · exact same
    · exact (alone apart' before' carries carries').elim
    · exact (alone (same ▸ apart) before carries' carries).elim
    · exact kept.apart j k first second id before before' carries carries'

theorem Kept.issue (kept : t.Kept) {i : Nat} {s : Session} (found : t.lines[i]? = some ⟨s, none⟩)
    (statement : Statement) (calls : List Call) :
    (t.take i statement calls (startStatement statement t.cluster s)).Kept := by
  have thins := thins_start statement t.cluster s
  refine kept.take found (settled_start statement t.cluster s).node (names_start statement t.cluster s)
    thins.number ?_
  refine (kept.owns.thin thins).imp fun _ flies => Or.inl ⟨flies, ?_⟩
  rintro ⟨⟩

theorem Kept.resume (kept : t.Kept) {i : Nat} {s : Session} {statement : Statement} {w : Waiting}
    (found : t.lines[i]? = some ⟨s, some (statement, w)⟩) (ready : t.cluster.settings.torn = false ∨ w.Loaded)
    (calls : List Call) : (t.take i statement calls (resumeStatement w t.cluster s)).Kept := by
  refine kept.take found (settled_resume w t.cluster s).node (names_resume w t.cluster s)
    (number_resume w t.cluster s) ?_
  have own (id : TransactionId) (carries : w.id? = some id) : id.epoch = s.epoch :=
    (kept.named i _ id found carries).2.1
  refine (owns_resume kept.owns ready own).imp fun id flies => flies.imp_right ?_
  rintro ⟨latency, w', next, waits⟩
  rw [Line.ofTurn, next]
  exact waits

theorem Kept.beside (kept : t.Kept) {t' : Traffic} (thins : Thins t.cluster t'.cluster)
    (busy : ∀ (i : Nat) (line : Line), line.pending ≠ none →
      (t'.lines[i]? = some line ↔ t.lines[i]? = some line)) : t'.Kept := by
  have pending {line : Line} {id : TransactionId} (carries : line.id? = some id) : line.pending ≠ none := by
    intro idle
    rw [Line.id?, idle] at carries
    cases carries
  have known {i : Nat} {line : Line} {id : TransactionId} (located : t'.lines[i]? = some line)
      (carries : line.id? = some id) : t.lines[i]? = some line :=
    (busy i line (pending carries)).mp located
  refine ⟨?_, ?_, ?_⟩
  · refine (kept.owns.thin thins).imp ?_
    rintro id ⟨i, line, located, waits⟩
    exact ⟨i, line, (busy i line (pending (id?_of_prepared? waits))).mpr located, waits⟩
  · intro i line id located carries
    obtain ⟨here, inEpoch, below⟩ := kept.named i line id (known located carries) carries
    exact ⟨here, inEpoch, Nat.lt_of_lt_of_le below thins.number⟩
  · intro i j line other id located located' carries carries'
    exact kept.apart i j line other id (known located carries) (known located' carries') carries carries'

theorem Kept.step (kept : t.Kept) (plain : t.cluster.settings.torn = false) (move : Move) :
    (t.step move).Kept := by
  cases move with
  | connect node =>
      refine kept.beside (Thins.refl t.cluster) fun i line busy => ⟨fun located => ?_, fun located => ?_⟩
      · cases lines_step located with
        | stays before => exact before
        | opens => exact absurd rfl busy
      · exact List.getElem?_append_left (List.getElem?_eq_some_iff.mp located).1 ▸ located
  | issue i statement =>
      simp only [Traffic.step]
      split
      · next s found => exact kept.issue found statement _
      · exact kept
  | resume i =>
      simp only [Traffic.step]
      split
      · next s statement w found => exact kept.resume found (Or.inl plain) _
      · exact kept
  | fault fault =>
      exact kept.beside (thins_inject fault t.cluster) fun _ _ _ => Iff.rfl

theorem kept_idle (owns : Owns c fun _ => False) : ({ cluster := c } : Traffic).Kept :=
  ⟨owns.imp fun _ none => none.elim, fun i line id found => by simp at found,
    fun i j line other id found => by simp at found⟩

theorem kept_run {settings : Settings} (plain : settings.torn = false) (moves : List Move) :
    (run settings moves).Kept := by
  have known : (run settings moves).Accounted settings ∧ (run settings moves).Kept := by
    refine List.foldlRecOn (motive := fun t => t.Accounted settings ∧ t.Kept) moves Traffic.step
      ⟨rfl, kept_idle (owns_new settings)⟩ ?_
    intro t ⟨accounted, kept⟩ move _
    have plain' : t.cluster.settings.torn = false := by
      rw [← accounted, ledger, Ledger.settings_run, plain]
    exact ⟨accounted.step move, kept.step plain' move⟩
  exact known.2

/-- However sessions and faults take their turns, every transaction that is prepared on a node that is up
belongs to exactly one commit on that node, which waits there between its two phases. So where no commit
does, such a node has nothing prepared. -/
theorem prepared_has_commit (settings : Settings) (plain : settings.torn = false) (moves : List Move) :
    let t := run settings moves
    let waits (node i : Nat) (id : TransactionId) := ∃ s statement writes reply,
      t.lines[i]? = some ⟨s, some (statement, .applying id writes reply)⟩ ∧ s.node = node
    ∀ node r, t.cluster.replicas[node]? = some r → r.up = true →
      (∀ id ∈ r.prepared, ∃! i, waits node i id) ∧
      ((∀ i id, ¬ waits node i id) → t.cluster.preparedOn node r.epoch = .ok 0) := by
  intro t waits node r found up
  have kept : t.Kept := kept_run plain moves
  have applies {i : Nat} {line : Line} {id : TransactionId} (located : t.lines[i]? = some line)
      (prepared : line.prepared? = some id) (here : id.node = node) : waits node i id := by
    have home := (kept.named i line id located (id?_of_prepared? prepared)).1
    obtain ⟨s, pending⟩ := line
    obtain ⟨⟨statement, w⟩, rfl, same⟩ := Option.bind_eq_some_iff.mp prepared
    -- Only a commit between its two phases has its transaction on the list.
    cases w with
    | applying id' writes reply =>
        cases same
        exact ⟨s, statement, writes, reply, located, home.symm.trans here⟩
    | reaching | preparing | tearing => cases same
  have owned : ∀ id ∈ r.prepared, ∃! i, waits node i id := by
    intro id member
    obtain ⟨here, -, i, line, located, prepared⟩ := (kept.owns node r found up).2 id member
    refine ⟨i, applies located prepared here, ?_⟩
    -- Ids are never given out twice, so another line with this one is the same line.
    rintro j ⟨s, statement, writes, reply, located', -⟩
    exact kept.apart j i _ line id located' located rfl (id?_of_prepared? prepared)
  refine ⟨owned, fun none => ?_⟩
  have empty : r.prepared = [] := List.eq_nil_iff_forall_not_mem.mpr fun id member => by
    obtain ⟨i, waits, -⟩ := owned id member
    exact none i id waits
  have isOpen : t.cluster.isOpen node r.epoch = true := isOpen_eq_true.mpr ⟨r, found, up, rfl⟩
  simp [preparedOn, isOpen, found, empty]

/-- Two commits that are prepared on one node, the first of which outlives a crash of the node. -/
def twoPrepared : List Move :=
  let transfer (line : Nat) : List Move :=
    [.issue line .begin, .resume line, .issue line (.add 1 (-5)), .resume line, .issue line (.add 2 5),
      .resume line, .issue line .commit, .resume line]
  [.connect 0, .issue 0 (.create 4), .resume 0] ++ transfer 0 ++
    [.fault (.crash 0), .fault (.start 0), .connect 0] ++ transfer 1

theorem commit_of_twoPrepared :
    let t := run {} twoPrepared
    let waits (node i : Nat) (id : TransactionId) := ∃ s statement writes reply,
      t.lines[i]? = some ⟨s, some (statement, .applying id writes reply)⟩ ∧ s.node = node
    t.cluster.replicas.map (·.prepared) = [[⟨0, 2, 1⟩], [], []] ∧ waits 0 0 ⟨0, 1, 0⟩ ∧
      (∃! i, waits 0 i ⟨0, 2, 1⟩) ∧ t.cluster.preparedOn 1 0 = .ok 0 := by
  intro t waits
  have kept := prepared_has_commit {} rfl twoPrepared
  have first : ∃ r, t.cluster.replicas[0]? = some r ∧ r.up = true ∧ ⟨0, 2, 1⟩ ∈ r.prepared :=
    ⟨_, rfl, by decide, by decide⟩
  obtain ⟨r, found, up, member⟩ := first
  have second : ∃ r', t.cluster.replicas[1]? = some r' ∧ r'.up = true ∧ r'.epoch = 0 :=
    ⟨_, rfl, by decide, by decide⟩
  obtain ⟨r', found', up', epoch⟩ := second
  have away : ∀ line ∈ t.lines, line.session.node = 0 := by decide
  have none : ∀ i id, ¬ waits 1 i id := by
    rintro i id ⟨s, statement, writes, reply, located, home⟩
    rw [away _ (List.mem_of_getElem? located)] at home
    contradiction
  have counted := (kept 1 r' found' up').2 none
  rw [epoch] at counted
  exact ⟨by decide, ⟨_, _, _, _, rfl, rfl⟩, (kept 0 r found up).1 _ member, counted⟩

end Traffic

end LedgerDrill.Cluster
