import LedgerDrill.Proofs.Cluster.Majority

namespace LedgerDrill.Cluster

variable {c c' c'' : Cluster} {s s' : Session} {node stops : Nat} {id : TransactionId} {writes : List Write}
variable {statement : Statement} {reply : Reply} {w : Waiting} {changes : List Change}

/-! ## Epochs -/

def Ages (c c' : Cluster) : Prop := ∀ (node : Nat) (r : Replica), c.replicas[node]? = some r →
  ∃ r', c'.replicas[node]? = some r' ∧ r.epoch ≤ r'.epoch

theorem Ages.refl (c : Cluster) : Ages c c := fun _ r found => ⟨r, found, Nat.le_refl _⟩

theorem Ages.trans (first : Ages c c') (second : Ages c' c'') : Ages c c'' := by
  intro node r found
  obtain ⟨r', found', later⟩ := first node r found
  obtain ⟨r'', found'', later'⟩ := second node r' found'
  exact ⟨r'', found'', Nat.le_trans later later'⟩

theorem ages_modify (c : Cluster) (node : Nat) {f : Replica → Replica} (later : ∀ r, r.epoch ≤ (f r).epoch) :
    Ages c (c.modify node f) := by
  intro other r found
  refine ⟨_, by rw [getElem?_modify, found, Option.map_some], ?_⟩
  split
  · exact later r
  · exact Nat.le_refl _

theorem ages_replicate (c : Cluster) (origin : Nat) (f : Accounts → Accounts) :
    Ages c (c.replicate origin f) := by
  intro node r found
  refine ⟨_, by rw [replicate, List.getElem?_mapIdx, found, Option.map_some], ?_⟩
  split <;> exact Nat.le_refl _

theorem ages_serve {epoch : Nat} (served : c.serve node epoch = .ok c') : Ages c c' := by
  rcases refresh_eq_ok (serve_eq_ok served).2 with ⟨rfl, -⟩ | ⟨donor, -, -, rfl⟩
  · exact Ages.refl _
  · exact ages_modify c node fun _ => Nat.le_refl _

theorem ages_forget (c : Cluster) (id : TransactionId) : Ages c (c.forget id) :=
  ages_modify c id.node fun _ => Nat.le_refl _

theorem ages_inject (fault : Fault) (c : Cluster) : Ages c (inject fault c).1 := by
  unfold inject
  split
  · exact Ages.refl c
  · cases fault with
    | crash node | shutdown node => exact ages_modify c node fun r => Nat.le_succ r.epoch
    | start node => exact ages_modify c node fun _ => Nat.le_refl _
    | isolate _ | heal _ | cut _ _ | restore _ _ => exact Ages.refl c

theorem ages_call (c : Cluster) (call : Call) : Ages c (c.call call).1 := by
  have known := makes c call
  generalize (c.call call).1 = c' at known
  cases known with
  | nothing | numbers => exact Ages.refl c
  | serves _ served => exact ages_serve served
  | prepares prepared =>
      obtain ⟨served, step, -, rfl⟩ := prepare_eq_ok prepared
      exact (ages_serve step).trans (ages_modify served _ fun _ => Nat.le_refl _)
  | commits epoch id writes =>
      rcases commitPrepared_cases c epoch id writes with ⟨_, eq⟩ | ⟨_, eq⟩ | ⟨_, _, _, eq⟩ <;> rw [eq]
      · exact Ages.refl c
      · exact ages_forget c id
      · exact (ages_forget c id).trans (ages_replicate _ id.node (·.apply writes))
  | aborts id => exact ages_forget c id
  | creates created =>
      obtain ⟨served, step, -, rfl⟩ := createAccounts_eq_ok created
      exact (ages_serve step).trans (ages_replicate served _ _)
  | breaks fault => exact ages_inject fault c

theorem ages_resume (w : Waiting) (c : Cluster) (s : Session) : Ages c (resumeStatement w c s).store := by
  have made : (Ledger.after ⟨c, []⟩ (w.calls c s)).cluster = (resumeStatement w c s).store :=
    Ledger.cluster_calls w
  exact made ▸ Ledger.after_related Ages.refl Ages.trans (fun c call _ => ages_call c call) ⟨c, []⟩

theorem ages_start (statement : Statement) (c : Cluster) (s : Session) :
    Ages c (startStatement statement c s).store := by
  have made : (Ledger.after ⟨c, []⟩ (startCalls s statement)).cluster = (startStatement statement c s).store :=
    Ledger.cluster_startCalls statement
  exact made ▸ Ledger.after_related Ages.refl Ages.trans (fun c call _ => ages_call c call) ⟨c, []⟩

/-! ## A session without its node -/

/-- The node of the session was stopped at least so often since the session was opened. -/
def Missed (stops : Nat) (c : Cluster) (s : Session) : Prop :=
  ∃ r, c.replicas[s.node]? = some r ∧ s.epoch + stops ≤ r.epoch

theorem Missed.ages (missed : Missed stops c s) (ages : Ages c c') (node : s'.node = s.node)
    (epoch : s'.epoch = s.epoch) : Missed stops c' s' := by
  obtain ⟨r, found, behind⟩ := missed
  obtain ⟨r', found', later⟩ := ages s.node r found
  exact ⟨r', node ▸ found', epoch ▸ Nat.le_trans behind later⟩

theorem missed_accept (accepted : (Store.accept c node).2 = .ok s) : Missed 0 c s := by
  change (c.openSession node).map _ = .ok s at accepted
  unfold openSession at accepted
  split at accepted
  · cases accepted
  · next r found =>
      split at accepted
      · cases accepted
        exact ⟨r, found, Nat.le_refl _⟩
      · cases accepted

theorem Missed.stop (missed : Missed stops c s) {fault : Fault}
    (stop : fault = .crash s.node ∨ fault = .shutdown s.node) : Missed (stops + 1) (inject fault c).1 s := by
  obtain ⟨r, found, behind⟩ := missed
  have bound : s.node < c.size := (List.getElem?_eq_some_iff.mp found).1
  have stopped (crash : Bool) : Missed (stops + 1) (c.stopNode s.node crash) s := by
    refine ⟨_, by rw [stopNode, getElem?_modify, found, Option.map_some, if_pos rfl], ?_⟩
    exact Nat.succ_le_succ behind
  rcases stop with rfl | rfl
  · rw [inject_eq fun node member => List.mem_singleton.mp member ▸ bound]
    exact stopped true
  · rw [inject_eq fun node member => List.mem_singleton.mp member ▸ bound]
    exact stopped false

theorem Missed.isOpen (missed : Missed 1 c s) : c.isOpen s.node s.epoch = false := by
  refine Bool.eq_false_iff.mpr fun isOpen => ?_
  obtain ⟨r, found, behind⟩ := missed
  obtain ⟨r', found', -, same⟩ := isOpen_eq_true.mp isOpen
  cases found.symm.trans found'
  omega

theorem Missed.serve (missed : Missed 1 c s) : c.serve s.node s.epoch = .error .connectionClosed := by
  rw [Cluster.serve, missed.isOpen, if_neg Bool.false_ne_true]

theorem Missed.commitPrepared (missed : Missed 1 c s) (home : id.node = s.node) (writes : List Write) :
    c.commitPrepared s.epoch id writes = (c, .error .connectionClosed) := by
  rw [Cluster.commitPrepared, home, missed.isOpen, Bool.not_false, if_pos rfl]

theorem Missed.prepare (missed : Missed 1 c s) (home : id.node = s.node) :
    c.prepare s.epoch id = .error .connectionClosed := by
  rw [Cluster.prepare, home, missed.serve]
  rfl

structure Refuses (c : Cluster) (turn : SessionTurn) (still : Prop) : Prop where
  store : turn.store = c
  answered : ∃ answer, turn.next = .answered answer ∧ ∀ reply, answer = .ok reply → still

theorem refuses_error {still : Prop} (c : Cluster) (s : Session) (e : StoreError) :
    Refuses c (answered c s (.error e)) still :=
  ⟨rfl, .error e, rfl, fun _ => nofun⟩

theorem refuses_ok {still : Prop} (holds : still) (c : Cluster) (s : Session) (reply : Reply) :
    Refuses c (answered c s (.ok reply)) still :=
  ⟨rfl, .ok reply, rfl, fun _ _ => holds⟩

theorem Refuses.imp {still still' : Prop} {turn : SessionTurn} (refuses : Refuses c turn still)
    (imp : still → still') : Refuses c turn still' := by
  obtain ⟨store, answer, next, only⟩ := refuses
  exact ⟨store, answer, next, fun reply ok => imp (only reply ok)⟩

theorem Missed.execute (missed : Missed 1 c s) (statement : Statement) :
    Refuses c (execute c s statement) (statement = .rollback ∨ statement = .commit) := by
  have refused {c' : Cluster} (served : c.serve s.node s.epoch = .ok c') : False := by
    cases missed.serve.symm.trans served
  have known := executes c s statement
  generalize Cluster.execute c s statement = turn at known
  cases known with
  | refused | lost => exact refuses_error c _ _
  | begins served | misses served | buffers served | commits served | totals served | digests served
    | creates served | offline served => exact (refused served).elim
  | counts counted =>
      rw [preparedOn, missed.isOpen, if_neg Bool.false_ne_true] at counted
      cases counted
  | rollsBack => exact refuses_ok (Or.inl rfl) c _ _
  | ends => exact refuses_ok (Or.inr rfl) c _ _

theorem Missed.applyTorn (missed : Missed 1 c s) (home : id.node = s.node) (writes : List Write)
    (reply : Reply) : Refuses c (applyTorn c s id writes reply) (writes = []) := by
  cases writes with
  | nil => exact refuses_ok rfl c _ _
  | cons write rest =>
      simp only [Cluster.applyTorn, missed.commitPrepared home]
      exact refuses_error c _ _

theorem Missed.applyWrites (missed : Missed 1 c s) (home : id.node = s.node) (writes : List Write)
    (reply : Reply) : Refuses c (applyWrites c s id writes reply) (c.settings.torn = true ∧ writes = []) := by
  unfold Cluster.applyWrites
  split
  · next torn => exact (missed.applyTorn home writes reply).imp fun none => ⟨torn, none⟩
  · simp only [missed.commitPrepared home]
    exact refuses_error c _ _

theorem Missed.preparing (missed : Missed 1 c s) (home : id.node = s.node) (writes : List Write)
    (reply : Reply) : Refuses c (resumeStatement (.preparing id writes reply) c s) False := by
  simp only [resumeStatement, missed.prepare home]
  exact refuses_error c _ _

theorem Missed.resume (missed : Missed 1 c s) (stands : Stands s.node statement w) :
    Refuses c (resumeStatement w c s) (statement = .rollback ∨
      c.settings.torn = true ∧ statement = .commit ∧ ∃ id reply, w = .applying id [] reply) := by
  cases stands with
  | reaching notCommit => exact (missed.execute statement).imp fun ok => Or.inl (ok.resolve_right notCommit)
  | preparing commit home => exact (missed.preparing home [] _).imp False.elim
  -- Prepared and torn, a commit of nothing has no step left at the cluster that could refuse it.
  | applying commit home =>
      exact (missed.applyWrites home [] _).imp fun ok => Or.inr ⟨ok.1, commit, _, _, rfl⟩
  | carries carries =>
      cases carries with
      | preparing home some => exact (missed.preparing home _ _).imp False.elim
      | applying home some => exact (missed.applyWrites home _ _).imp fun ok => absurd ok.2 some
      | tearing home some => exact (missed.applyTorn home _ _).imp fun none => absurd none some

theorem Missed.call_commitPrepared (missed : Missed 1 c s) (home : id.node = s.node) (writes : List Write) :
    Ledger.call ⟨c, changes⟩ (.commitPrepared s.epoch id writes) = ⟨c, changes⟩ := by
  simp only [Ledger.call, Cluster.call, missed.commitPrepared home]
  rw [Ledger.changesOf, if_neg (by simp [Except.toOption]), List.append_nil]

theorem Missed.changes_tornCalls (missed : Missed 1 c s) (home : id.node = s.node) (writes : List Write) :
    (Ledger.after ⟨c, changes⟩ (tornCalls c s id writes)).changes = changes := by
  cases writes with
  | nil => rfl
  | cons write rest =>
      simp only [tornCalls, missed.commitPrepared home, finishCalls, Ledger.after_cons,
        missed.call_commitPrepared home]
      rfl

theorem Missed.changes_applyCalls (missed : Missed 1 c s) (home : id.node = s.node) (writes : List Write) :
    (Ledger.after ⟨c, changes⟩ (applyCalls c s id writes)).changes = changes := by
  unfold applyCalls
  split
  · exact missed.changes_tornCalls home writes
  · simp only [missed.commitPrepared home, finishCalls, Ledger.after_cons, missed.call_commitPrepared home]
    rfl

theorem Missed.changes_calls (missed : Missed 1 c s) (stands : Stands s.node statement w) :
    (Ledger.after ⟨c, changes⟩ (w.calls c s)).changes = changes := by
  have prepares {id : TransactionId} {writes : List Write} {reply : Reply} (home : id.node = s.node) :
      (Ledger.after ⟨c, changes⟩ (Waiting.calls c s (.preparing id writes reply))).changes = changes := by
    rw [Waiting.calls, missed.prepare home]
    exact Ledger.changes_after_silent (by simp [Call.change?])
  cases stands with
  | preparing commit home => exact prepares home
  | applying commit home => exact missed.changes_applyCalls home _
  | carries carries =>
      cases carries with
      | preparing home some => exact prepares home
      | applying home some => exact missed.changes_applyCalls home _
      | tearing home some => exact missed.changes_tornCalls home _
  | reaching notCommit =>
      by_cases creates : ∃ n, statement = .create n
      · obtain ⟨n, rfl⟩ := creates
        have refused : c.createAccounts s.node s.epoch n = .error .connectionClosed := by
          rw [createAccounts, missed.serve]
          rfl
        simp only [Waiting.calls, executeCalls, Ledger.after_cons, Ledger.call, Cluster.call, refused]
        exact List.append_nil changes
      · -- Only a new table is a change in the first step of a statement.
        exact changes_executeCalls fun n same => creates ⟨n, same⟩

theorem unprepared_start (statement : Statement) (c : Cluster) (s : Session) :
    (startStatement statement c s).store.replicas = c.replicas ∧
      ∀ latency w, (startStatement statement c s).next = .waiting latency w → w.prepared? = none := by
  have known := starts statement c s
  generalize startStatement statement c s = turn at known
  cases known with
  | closed | refused | idle | gaveUp => exact ⟨rfl, fun _ _ => nofun⟩
  | commits | sends => exact ⟨rfl, by rintro _ _ ⟨⟩; rfl⟩

/-! ## Runs -/

namespace Traffic

variable {settings : Settings} {t : Traffic} {line : Line} {i : Nat} {move : Move} {x : Exchange}
variable {since : Option (Statement × Waiting)}

theorem ages_step (t : Traffic) (move : Move) : Ages t.cluster (t.step move).cluster := by
  cases move with
  | connect node => exact Ages.refl _
  | fault fault => exact ages_inject fault t.cluster
  | issue line statement =>
      simp only [step]
      split
      · exact ages_start statement t.cluster _
      · exact Ages.refl _
  | resume line =>
      simp only [step]
      split
      · exact ages_resume _ t.cluster _
      · exact Ages.refl _

def Admitted (t : Traffic) : Prop := ∀ (i : Nat) (line : Line), t.lines[i]? = some line →
  Missed 0 t.cluster line.session

theorem Admitted.step (admitted : t.Admitted) (move : Move) : (t.step move).Admitted := by
  intro i line located
  have ages := ages_step t move
  cases lines_step located with
  | stays before => exact (admitted i line before).ages ages rfl rfl
  | opens vacant accepted => exact (missed_accept accepted).ages ages rfl rfl
  | @starts s statement before =>
      rw [session_ofTurn]
      exact (admitted i _ before).ages ages (settled_start statement t.cluster s).node
        (names_start statement t.cluster s).epoch
  | @resumes s statement w before =>
      rw [session_ofTurn]
      exact (admitted i _ before).ages ages (settled_resume w t.cluster s).node (names_resume w t.cluster s).epoch

theorem admitted_run (settings : Settings) (moves : List Move) : (run settings moves).Admitted :=
  List.foldlRecOn (motive := Admitted) moves Traffic.step (fun i line found => by simp at found)
    fun _ admitted move _ => admitted.step move

/-- The session has missed a stop of its node. What is under way on it was so at the stop already, or is not
prepared. -/
structure Fenced (i : Nat) (since : Option (Statement × Waiting)) (t : Traffic) (line : Line) : Prop where
  located : t.lines[i]? = some line
  missed : Missed 1 t.cluster line.session
  pending : line.pending = since ∨ line.prepared? = none

theorem Fenced.step (fenced : t.Fenced i since line) (standing : t.Standing) (move : Move) :
    ∃ line', (t.step move).Fenced i since line' := by
  obtain ⟨here, missed, pending⟩ := fenced
  have ages := ages_step t move
  obtain ⟨line', located, -⟩ := node_step here move
  refine ⟨line', ?_⟩
  cases lines_step located with
  | stays before =>
      cases before.symm.trans here
      exact ⟨located, missed.ages ages rfl rfl, pending⟩
  | opens vacant accepted => cases vacant.symm.trans here
  | @starts s statement before =>
      cases before.symm.trans here
      refine ⟨located, ?_, Or.inr ?_⟩
      · rw [session_ofTurn]
        exact missed.ages ages (settled_start statement t.cluster s).node (names_start statement t.cluster s).epoch
      · unfold Line.ofTurn
        split
        · rfl
        · next latency w next => exact (unprepared_start statement t.cluster s).2 latency w next
  | @resumes s statement w before =>
      cases before.symm.trans here
      have stands : Stands s.node statement w := standing i _ here statement w rfl
      obtain ⟨-, answer, next, -⟩ := missed.resume stands
      refine ⟨located, ?_, Or.inr ?_⟩
      · rw [session_ofTurn]
        exact missed.ages ages (settled_resume w t.cluster s).node (names_resume w t.cluster s).epoch
      · rw [Line.ofTurn, next]
        rfl

/-- What a fenced session can still be told to have succeeded. -/
def StillAnswered (settings : Settings) (since : Option (Statement × Waiting)) (statement : Statement) : Prop :=
  statement = .rollback ∨
    settings.torn = true ∧ statement = .commit ∧ ∃ id reply, since = some (.commit, .applying id [] reply)

theorem Fenced.answers (fenced : t.Fenced i since line) (standing : t.Standing) (same : t.cluster.settings = settings)
    (completes : Completes t (t.step move) x) (own : x.line = i) : StillAnswered settings since x.statement := by
  subst own
  cases completes with
  | @mk s w reply pending done =>
      obtain rfl := Option.some.inj (fenced.located.symm.trans pending)
      have stands : Stands s.node x.statement w := standing x.line _ pending x.statement w rfl
      obtain ⟨-, answer, next, only⟩ := fenced.missed.resume stands
      cases next.symm.trans done
      refine (only reply rfl).imp_right ?_
      rintro ⟨torn, commit, id, empty, rfl⟩
      refine ⟨same ▸ torn, commit, id, empty, ?_⟩
      -- After the stop no commit gets past its first phase, so this one had done so before.
      rcases fenced.pending with before | unprepared
      · rw [← before, commit]
      · cases unprepared

theorem settings_of_accounted (accounted : t.Accounted settings) : t.cluster.settings = settings := by
  rw [← accounted, ledger, Ledger.settings_run]

theorem Fenced.harmless (fenced : t.Fenced i since line) (standing : t.Standing) (accounted : t.Accounted settings)
    (own : (∃ statement, move = .issue i statement) ∨ move = .resume i) :
    (t.step move).cluster.replicas = t.cluster.replicas ∧
      ((t.step move).ledger settings).changes = (t.ledger settings).changes := by
  have ledgerEq := accounted.ledger_eq
  rcases own with ⟨statement, rfl⟩ | rfl
  · simp only [Traffic.step]
    split
    · next s found =>
        refine ⟨(unprepared_start statement t.cluster s).1, ?_⟩
        rw [ledger_take, ledgerEq, changes_startCalls]
    · exact ⟨rfl, rfl⟩
  · simp only [Traffic.step]
    split
    · next s statement w found =>
        obtain rfl := Option.some.inj (fenced.located.symm.trans found)
        have stands : Stands s.node statement w := standing i _ found statement w rfl
        refine ⟨congrArg Cluster.replicas (fenced.missed.resume stands).store, ?_⟩
        rw [ledger_take, ledgerEq, fenced.missed.changes_calls stands]
    · exact ⟨rfl, rfl⟩

theorem fenced_stop (located : t.lines[i]? = some line) (admitted : t.Admitted) {fault : Fault}
    (stop : fault = .crash line.session.node ∨ fault = .shutdown line.session.node) :
    (t.step (.fault fault)).Fenced i line.pending line :=
  ⟨located, (admitted i line located).stop stop, Or.inl rfl⟩

theorem Fenced.foldl (fenced : t.Fenced i since line) (accounted : t.Accounted settings) (standing : t.Standing)
    (later : List Move) :
    let last := later.foldl Traffic.step t
    ((last.Accounted settings ∧ last.Standing) ∧ ∃ line', last.Fenced i since line') ∧
    ∃ told, last.history = told ++ t.history ∧ ∀ x ∈ told, ∀ reply, x.answer = .ok reply → x.line = i →
      StillAnswered settings since x.statement := by
  let answered (_ : Traffic) (x : Exchange) : Prop := x.line = i → StillAnswered settings since x.statement
  let known (t : Traffic) : Prop := (t.Accounted settings ∧ t.Standing) ∧ ∃ line', t.Fenced i since line'
  have kept (t : Traffic) (here : known t) (move : Move) : known (t.step move) := by
    obtain ⟨⟨accounted, standing⟩, line', fenced⟩ := here
    exact ⟨⟨accounted.step move, standing.step move⟩, fenced.step standing move⟩
  have made (t : Traffic) (here : known t) (move : Move) (x : Exchange) (completes : Completes t (t.step move) x) :
      answered (t.step move) x := by
    obtain ⟨⟨accounted, standing⟩, line', fenced⟩ := here
    exact fenced.answers standing (settings_of_accounted accounted) completes
  exact history_foldl (P := answered) (I := known) (fun t here move _ => kept t here move) (fun _ _ _ _ _ => id)
    (fun t here move _ => made t here move) ⟨⟨accounted, standing⟩, line, fenced⟩

/-- Once the node of a session was crashed or shut down, wherever the session was and whatever happens afterwards,
no statement of the session succeeds but a rollback, or a torn commit of nothing that was prepared already. And no
step of it changes a replica. -/
theorem stopped_sessions_stay_dead (settings : Settings) (past later : List Move) (i : Nat) (line : Line)
    (fault : Fault) (located : (run settings past).lines[i]? = some line)
    (stop : fault = .crash line.session.node ∨ fault = .shutdown line.session.node) :
    let t := run settings (past ++ .fault fault :: later)
    (∃ told, t.history = told ++ (run settings past).history ∧
      ∀ x ∈ told, x.line = i → ∀ reply, x.answer = .ok reply → StillAnswered settings line.pending x.statement) ∧
    ∀ move, (∃ statement, move = .issue i statement) ∨ move = .resume i →
      (t.step move).cluster.replicas = t.cluster.replicas ∧
        ((t.step move).ledger settings).changes = (t.ledger settings).changes := by
  intro t
  have unfolded : t = later.foldl Traffic.step ((run settings past).step (.fault fault)) :=
    run_append settings past (.fault fault :: later)
  have accounted : (run settings past).Accounted settings :=
    List.foldlRecOn (motive := Accounted settings) past Traffic.step rfl fun _ accounted move _ => accounted.step move
  have fenced := fenced_stop located (admitted_run settings past) stop
  obtain ⟨⟨⟨accounted', standing'⟩, line', fenced'⟩, told, history, refused⟩ :=
    fenced.foldl (accounted.step (.fault fault)) ((standing_run settings past).step (.fault fault)) later
  rw [← unfolded] at accounted' standing' fenced' history
  refine ⟨⟨told, history, fun x member own reply ok => refused x member reply ok own⟩, ?_⟩
  exact fun move own => fenced'.harmless standing' accounted' own

def halfCommitted : List Move :=
  [.connect 0, .issue 0 (.create 2), .resume 0, .issue 0 .begin, .resume 0, .issue 0 (.add 1 5), .resume 0,
    .issue 0 .commit, .resume 0]

/-- The node is up, fresh and in a majority again when the commit goes on. -/
theorem halfCommitted_is_lost :
    let t := run {} (halfCommitted ++ .fault (.shutdown 0) :: [.fault (.start 0)])
    t.cluster.isFresh 0 = true ∧ t.cluster.reachable 0 = [0, 1, 2] ∧
    (t.step (.resume 0)).cluster.replicas = t.cluster.replicas ∧
    ((t.step (.resume 0)).history.map (·.answer)).head? = some (.error .connectionClosed) ∧
    ∃ told, (t.step (.resume 0)).history = told ++ (run {} halfCommitted).history ∧
      ∀ x ∈ told, x.line = 0 → ∀ reply, x.answer = .ok reply → x.statement = .rollback := by
  intro t
  let line : Line := ⟨⟨0, 0, .inTransaction, false, []⟩, some (.commit, .applying ⟨0, 1, 0⟩ [⟨1, 5⟩] .done)⟩
  have located : (run {} halfCommitted).lines[0]? = some line := by decide
  obtain ⟨-, harmless⟩ := stopped_sessions_stay_dead {} halfCommitted [.fault (.start 0)] 0 line (.shutdown 0)
    located (Or.inr rfl)
  obtain ⟨⟨told, history, refused⟩, -⟩ :=
    stopped_sessions_stay_dead {} halfCommitted [.fault (.start 0), .resume 0] 0 line (.shutdown 0) located (Or.inr rfl)
  refine ⟨by decide, by decide, (harmless (.resume 0) (Or.inr rfl)).1, by decide, told, history, ?_⟩
  intro x member own reply ok
  rcases refused x member own reply ok with rollback | ⟨torn, -⟩
  · exact rollback
  · cases torn

end Traffic

end LedgerDrill.Cluster
