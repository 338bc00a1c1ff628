import LedgerDrill.Proofs.Cluster.Atomicity
import LedgerDrill.Proofs.Cluster.Links
import LedgerDrill.Proofs.Cluster.Progress

namespace LedgerDrill.Cluster
open Workload

variable {c c' c'' : Cluster} {s : Session} {node : Nat} {statement : Statement} {w : Waiting} {reply : Reply}

/-! ## Mending -/

namespace Links

variable {l l' : Links} {a b : Nat}

theorem connected_of_subset (subset : l'.cuts ⊆ l.cuts) (connected : l.connected a b = true) :
    l'.connected a b = true := by
  rw [Links.connected, Bool.or_eq_true, Bool.not_eq_true'] at connected ⊢
  refine connected.imp_right fun known => Bool.eq_false_iff.mpr fun cut => ?_
  rw [List.contains_iff_mem.mpr (subset (List.contains_iff_mem.mp cut))] at known
  contradiction

theorem connected_heal (l : Links) {size : Nat} (bound : b < size) : (l.heal size a).connected a b = true :=
  connected_of_not_mem fun cut => (mem_cuts_heal.mp cut).2 b bound rfl

end Links

structure Improves (c c' : Cluster) : Prop where
  size : c'.size = c.size
  up : ∀ node, c.holds node (·.up) = true → c'.holds node (·.up) = true
  links : ∀ a b, c.links.connected a b = true → c'.links.connected a b = true
  alive : c.Alive → c'.Alive

theorem Improves.refl (c : Cluster) : Improves c c := ⟨rfl, fun _ => id, fun _ _ => id, id⟩

theorem Improves.trans (first : Improves c c') (second : Improves c' c'') : Improves c c'' where
  size := second.size.trans first.size
  up node := second.up node ∘ first.up node
  links a b := second.links a b ∘ first.links a b
  alive := second.alive ∘ first.alive

theorem Served.improves (served : Served c c') : Improves c c' where
  size := served.alike.size
  up node up := (served.alike.up node).trans up
  links a b connected := by rwa [served.alike.links]
  alive := served.alive.mpr

theorem inject_eq {fault : Fault} (known : ∀ node ∈ faultNodes fault, node < c.size) :
    inject fault c = (c.applyFault fault, .ok ()) := by
  have none : (faultNodes fault).find? (c.size ≤ ·) = none := by
    refine List.find?_eq_none.mpr fun node member => ?_
    rw [decide_eq_true_eq]
    exact Nat.not_le.mpr (known node member)
  rw [inject, none]

theorem improves_inject {fault : Fault} (mends : ∃ node, fault = .start node ∨ fault = .heal node) :
    Improves c (inject fault c).1 := by
  unfold inject
  split
  · exact Improves.refl c
  · obtain ⟨node, rfl | rfl⟩ := mends
    · refine ⟨size_modify c node _, fun other up => ?_, fun _ _ => id, ?_⟩
      · obtain ⟨r, found, isUp⟩ := holds_eq_true.mp up
        refine holds_eq_true.mpr ⟨_, by rw [applyFault, startNode, getElem?_modify, found, Option.map_some], ?_⟩
        split
        · rfl
        · exact isUp
      · intro alive
        obtain ⟨other, fresh⟩ := alive_iff.mp alive
        exact alive_of_fresh (isFresh_modify c node (fun _ isFresh => isFresh) fresh)
    · exact ⟨rfl, fun _ => id, fun a b => Links.connected_of_subset (fun _ cut => (Links.mem_cuts_heal.mp cut).1), id⟩

theorem up_start (bound : node < c.size) : (inject (.start node) c).1.holds node (·.up) = true := by
  rw [inject_eq fun other member => List.mem_singleton.mp member ▸ bound]
  have found : c.replicas[node]? = some c.replicas[node] := List.getElem?_eq_getElem bound
  refine holds_eq_true.mpr ⟨_, by rw [applyFault, startNode, getElem?_modify, found, Option.map_some], ?_⟩
  rw [if_pos rfl]

theorem linked_heal (bound : node < c.size) {peer : Nat} (bound' : peer < c.size) :
    (inject (.heal node) c).1.links.connected node peer = true := by
  rw [inject_eq fun other member => List.mem_singleton.mp member ▸ bound]
  exact Links.connected_heal c.links bound'

/-! ## Moves -/

namespace Traffic

variable {settings : Settings} {t : Traffic} {move : Move} {moves : List Move}

/-- Every node is started and healed, in any order and with steps of sessions in between, and nothing is
broken. -/
structure Mends (size : Nat) (moves : List Move) : Prop where
  harmless : ∀ fault, .fault fault ∈ moves → ∃ node, fault = .start node ∨ fault = .heal node
  starts : ∀ node < size, .fault (.start node) ∈ moves
  heals : ∀ node < size, .fault (.heal node) ∈ moves

theorem run_append (settings : Settings) (moves more : List Move) :
    run settings (moves ++ more) = more.foldl step (run settings moves) :=
  List.foldl_append

theorem served_step (t : Traffic) (quiet : ∀ fault, move ≠ .fault fault) :
    Served t.cluster (t.step move).cluster := by
  cases move with
  | fault fault => exact absurd rfl (quiet fault)
  | connect node => exact Served.refl _
  | issue line statement =>
      simp only [step]
      split
      · exact served_start statement t.cluster _
      · exact Served.refl _
  | resume line =>
      simp only [step]
      split
      · exact served_resume _ t.cluster _
      · exact Served.refl _

theorem served_foldl (t : Traffic) (quiet : ∀ fault, .fault fault ∉ moves) :
    Served t.cluster (moves.foldl step t).cluster := by
  refine List.foldlRecOn (motive := fun t' => Served t.cluster t'.cluster) moves step
    (Served.refl _) fun t' served move member => served.trans (served_step t' ?_)
  rintro fault rfl
  exact quiet fault member

theorem size_step (t : Traffic) (move : Move) : (t.step move).cluster.size = t.cluster.size := by
  by_cases isFault : ∃ fault, move = .fault fault
  · obtain ⟨fault, rfl⟩ := isFault
    exact size_inject fault t.cluster
  · exact (served_step t fun fault same => isFault ⟨fault, same⟩).alike.size

theorem size_run (settings : Settings) (moves : List Move) :
    (run settings moves).cluster.size = settings.nodes :=
  List.foldlRecOn (motive := fun t => t.cluster.size = settings.nodes) moves step
    (List.length_replicate ..) fun t size move _ => (size_step t move).trans size

theorem improves_step (t : Traffic)
    (harmless : ∀ fault, move = .fault fault → ∃ node, fault = .start node ∨ fault = .heal node) :
    Improves t.cluster (t.step move).cluster := by
  by_cases isFault : ∃ fault, move = .fault fault
  · obtain ⟨fault, rfl⟩ := isFault
    exact improves_inject (harmless fault rfl)
  · exact (served_step t fun fault same => isFault ⟨fault, same⟩).improves

theorem improves_foldl (t : Traffic)
    (harmless : ∀ fault, .fault fault ∈ moves → ∃ node, fault = .start node ∨ fault = .heal node) :
    Improves t.cluster (moves.foldl step t).cluster := by
  refine List.foldlRecOn (motive := fun t' => Improves t.cluster t'.cluster) moves step
    (Improves.refl _) fun t' improves move member => improves.trans (improves_step t' ?_)
  rintro fault rfl
  exact harmless fault member

theorem lasts {P : Cluster → Prop} (kept : ∀ c c', Improves c c' → P c → P c')
    (harmless : ∀ fault, .fault fault ∈ moves → ∃ node, fault = .start node ∨ fault = .heal node)
    (member : move ∈ moves) (t : Traffic)
    (made : ∀ t' : Traffic, t'.cluster.size = t.cluster.size → P (t'.step move).cluster) :
    P (moves.foldl step t).cluster := by
  obtain ⟨before, after, rfl⟩ := List.append_of_mem member
  rw [List.foldl_append, List.foldl_cons]
  have first := improves_foldl t fun fault member => harmless fault (List.mem_append_left _ member)
  refine kept _ _ (improves_foldl _ fun fault member => ?_) (made _ first.size)
  exact harmless fault (List.mem_append_right _ (List.mem_cons_of_mem _ member))

theorem Mends.connected (mends : Mends t.cluster.size moves) :
    (moves.foldl step t).cluster.Connected := by
  have size := (improves_foldl t mends.harmless).size
  constructor
  · intro node bound
    rw [size] at bound
    refine lasts (P := fun c => c.holds node (·.up) = true) (fun c c' improves => improves.up node)
      mends.harmless (mends.starts node bound) t fun t' same => ?_
    exact up_start (same ▸ bound)
  · intro a bound b bound'
    rw [size] at bound bound'
    refine lasts (P := fun c => c.links.connected a b = true) (fun c c' improves => improves.links a b)
      mends.harmless (mends.heals a bound) t fun t' same => ?_
    exact linked_heal (same ▸ bound) (same ▸ bound')

theorem Mends.run (mends : Mends settings.nodes moves) {before : List Move}
    (alive : (run settings before).cluster.Alive) :
    (Traffic.run settings (before ++ moves)).cluster.Connected ∧
      (Traffic.run settings (before ++ moves)).cluster.Alive := by
  rw [← size_run settings before] at mends
  rw [run_append]
  exact ⟨mends.connected, (improves_foldl _ mends.harmless).alive alive⟩

/-! ## Answers -/

inductive Completes (t t' : Traffic) (x : Exchange) : Prop
  | mk {s : Session} {w : Waiting} {reply : Reply} (pending : t.lines[x.line]? = some ⟨s, some (x.statement, w)⟩)
      (done : (resumeStatement w t.cluster s).next = .answered (.ok reply))
      (cluster : t'.cluster = (resumeStatement w t.cluster s).store)
      (line : t'.lines[x.line]? = some ⟨(resumeStatement w t.cluster s).session, none⟩)

theorem history_step (t : Traffic) (move : Move) :
    (t.step move).history = t.history ∨ ∃ x, (t.step move).history = x :: t.history ∧
      ∀ reply, x.answer = .ok reply → Completes t (t.step move) x := by
  cases move with
  | connect node | fault fault => exact Or.inl rfl
  | issue line statement =>
      simp only [step]
      split
      · next s found =>
          rcases start_cases statement t.cluster s with ⟨_, _, next⟩ | ⟨e, next, -⟩
          · refine Or.inl ?_
            simp [take, answers, next]
          · refine Or.inr ⟨⟨line, statement, .error e⟩, ?_, ?_⟩
            · simp [take, answers, next]
            · rintro _ ⟨⟩
      · exact Or.inl rfl
  | resume line =>
      simp only [step]
      split
      · next s statement w found =>
          cases next : (resumeStatement w t.cluster s).next with
          | waiting latency w' =>
              refine Or.inl ?_
              simp [take, answers, next]
          | answered answer =>
              refine Or.inr ⟨⟨line, statement, answer⟩, ?_, ?_⟩
              · simp [take, answers, next]
              · rintro reply rfl
                refine ⟨found, next, rfl, ?_⟩
                have bound := (List.getElem?_eq_some_iff.mp found).1
                simp only [take, List.getElem?_set_self bound, Line.ofTurn, next]
      · exact Or.inl rfl

theorem history_foldl {P : Traffic → Exchange → Prop} {I : Traffic → Prop}
    (kept : ∀ t, I t → ∀ move ∈ moves, I (t.step move))
    (lasts : ∀ t, I t → ∀ move ∈ moves, ∀ x, P t x → P (t.step move) x)
    (made : ∀ t, I t → ∀ move ∈ moves, ∀ x, Completes t (t.step move) x → P (t.step move) x)
    (start : I t) : I (moves.foldl step t) ∧ ∃ new, (moves.foldl step t).history = new ++ t.history ∧
      ∀ x ∈ new, ∀ reply, x.answer = .ok reply → P (moves.foldl step t) x := by
  refine List.foldlRecOn (motive := fun t' => I t' ∧ ∃ new, t'.history = new ++ t.history ∧
    ∀ x ∈ new, ∀ reply, x.answer = .ok reply → P t' x) moves step
    ⟨start, [], rfl, fun _ member => absurd member List.not_mem_nil⟩ ?_
  rintro t' ⟨known, new, history, all⟩ move member
  refine ⟨kept t' known move member, ?_⟩
  have old (x : Exchange) (known' : x ∈ new) (reply : Reply) (ok : x.answer = .ok reply) : P (t'.step move) x :=
    lasts t' known move member x (all x known' reply ok)
  rcases history_step t' move with same | ⟨x, same, completes⟩
  · exact ⟨new, same.trans history, old⟩
  · refine ⟨x :: new, by rw [same, history, List.cons_append], ?_⟩
    intro x' among reply ok
    rcases List.mem_cons.mp among with rfl | among
    · exact made t' known move member x' (completes reply ok)
    · exact old x' among reply ok

end Traffic

/-! ## After the mending -/

def Line.Fits (line : Line) : Prop :=
  ∀ statement w, line.pending = some (statement, w) → readsAccounts statement = true →
    w = .reaching statement ∨ Carries line.session.node w

theorem fits_ofTurn {turn : SessionTurn} (waits : ∀ latency w, turn.next = .waiting latency w →
    readsAccounts statement = true → w = .reaching statement ∨ Carries turn.session.node w) :
    (Line.ofTurn statement turn).Fits := by
  unfold Line.ofTurn
  split
  · rintro _ _ ⟨⟩
  · next latency w next =>
      rintro _ _ ⟨⟩ reads
      exact waits latency w next reads

theorem fits_start (statement : Statement) (c : Cluster) (s : Session) :
    (Line.ofTurn statement (startStatement statement c s)).Fits := by
  have known := starts statement c s
  generalize startStatement statement c s = turn at known
  refine fits_ofTurn fun latency w next reads => ?_
  cases known with
  | closed | refused | idle | gaveUp => cases next
  | commits => cases reads
  | sends => cases next; exact Or.inl rfl

theorem carries_execute {latency : Latency} (next : (execute c s statement).next = .waiting latency w) :
    Carries s.node w := by
  have known := executes c s statement
  generalize execute c s statement = turn at known next
  cases known with
  | refused | begins | misses | buffers | totals | digests | creates | offline | counts | lost | rollsBack
    | ends => cases next
  | @commits c' uid delta =>
      cases next
      have home : TransactionId.node ⟨s.node, c'.nextNumber, s.epoch⟩ = s.node := rfl
      exact .preparing home (List.cons_ne_nil _ _)

theorem id?_of_resume {latency : Latency} {w' : Waiting} (next : (resumeStatement w c s).next = .waiting latency w') :
    ∃ id, w'.id? = some id := by
  have named {node : Nat} (carries : Carries node w') : ∃ id, w'.id? = some id := by
    cases carries <;> exact ⟨_, rfl⟩
  have known := resumes w c s
  generalize resumeStatement w c s = turn at known next
  cases known with
  | reaching statement => exact named (carries_execute next)
  | refused => cases next
  | prepared =>
      cases next
      exact ⟨_, rfl⟩
  | goesOn _ puts | applying puts | tearing puts => exact named (carries_puts rfl puts next)

theorem Line.Fits.resume (fits : Line.Fits ⟨s, some (statement, w)⟩) (c : Cluster) :
    (Line.ofTurn statement (resumeStatement w c s)).Fits := by
  refine fits_ofTurn fun latency w' next reads => Or.inr ?_
  rw [(settled_resume w c s).node]
  rcases fits statement w rfl reads with rfl | carries
  · exact carries_execute next
  · exact carries.resume next

namespace Traffic

variable {settings : Settings} {t : Traffic} {move : Move} {moves : List Move} {x : Exchange}

def Fitting (t : Traffic) : Prop := ∀ (i : Nat) (line : Line), t.lines[i]? = some line → line.Fits

theorem Fitting.step (fitting : t.Fitting) (move : Move) : (t.step move).Fitting := by
  intro i line located
  cases lines_step located with
  | stays before => exact fitting i line before
  | opens vacant accepted => exact fun _ _ => nofun
  | starts before => exact fits_start _ t.cluster _
  | resumes before => exact (fitting i _ before).resume t.cluster

theorem fitting_run (settings : Settings) (moves : List Move) : (run settings moves).Fitting :=
  List.foldlRecOn (motive := Fitting) moves Traffic.step (fun i line found => by simp at found)
    fun _ fitting move _ => fitting.step move

theorem node_step {i : Nat} {line : Line} (located : t.lines[i]? = some line) (move : Move) :
    ∃ line', (t.step move).lines[i]? = some line' ∧ line'.session.node = line.session.node := by
  have bound := (List.getElem?_eq_some_iff.mp located).1
  have took {j : Nat} {s : Session} {pending : Option (Statement × Waiting)} {statement : Statement}
      {calls : List Call} {turn : SessionTurn} (found : t.lines[j]? = some ⟨s, pending⟩)
      (node : turn.session.node = s.node) :
      ∃ line', (t.take j statement calls turn).lines[i]? = some line' ∧
        line'.session.node = line.session.node := by
    by_cases same : j = i
    · subst same
      cases found.symm.trans located
      exact ⟨_, List.getElem?_set_self bound, (congrArg _ (session_ofTurn statement turn)).trans node⟩
    · exact ⟨line, (List.getElem?_set_ne same).trans located, rfl⟩
  cases move with
  | fault fault => exact ⟨line, located, rfl⟩
  | connect node => exact ⟨line, (List.getElem?_append_left bound).trans located, rfl⟩
  | issue j statement =>
      simp only [step]
      split
      · next s found => exact took found (settled_start statement t.cluster s).node
      · exact ⟨line, located, rfl⟩
  | resume j =>
      simp only [step]
      split
      · next s statement w found => exact took found (settled_resume w t.cluster s).node
      · exact ⟨line, located, rfl⟩

def Reached (t : Traffic) (x : Exchange) : Prop :=
  readsAccounts x.statement = true →
    ∃ line, t.lines[x.line]? = some line ∧ t.cluster.isFresh line.session.node = true

theorem Fitting.reached (fitting : t.Fitting) (completes : Completes t (t.step move) x) :
    (t.step move).Reached x := by
  intro reads
  obtain ⟨pending, done, cluster, line⟩ := completes
  refine ⟨_, line, ?_⟩
  rw [cluster, (settled_resume _ t.cluster _).node]
  rcases fitting x.line _ pending x.statement _ rfl reads with same | carries
  · rw [same] at done ⊢
    exact fresh_execute reads done
  · obtain ⟨id, home, shows⟩ := carries.shows t.cluster.settings.torn
    exact home ▸ shows.fresh done

theorem Reached.step (reached : t.Reached x) (connected : t.cluster.Connected)
    (quiet : ∀ fault, move ≠ .fault fault) : (t.step move).Reached x := by
  intro reads
  obtain ⟨line, located, fresh⟩ := reached reads
  obtain ⟨line', located', same⟩ := node_step located move
  refine ⟨line', located', same ▸ ?_⟩
  exact (served_step t quiet).fresh _ (connected.central (lt_size fresh)) fresh

theorem reached_foldl (connected : t.cluster.Connected) (fitting : t.Fitting)
    (quiet : ∀ fault, .fault fault ∉ moves) :
    (moves.foldl step t).cluster.Connected ∧ ∃ new, (moves.foldl step t).history = new ++ t.history ∧
      ∀ x ∈ new, ∀ reply, x.answer = .ok reply → (moves.foldl step t).Reached x := by
  have isQuiet {move : Move} (member : move ∈ moves) (fault : Fault) : move ≠ .fault fault :=
    fun same => quiet fault (same ▸ member)
  have known := history_foldl (P := Reached) (I := fun t => t.cluster.Connected ∧ t.Fitting)
    (fun t known move member =>
      ⟨known.1.alike (served_step t (isQuiet member)).alike, known.2.step move⟩)
    (fun t known move member x reached => reached.step known.1 (isQuiet member))
    (fun t known move _ x completes => known.2.reached completes) ⟨connected, fitting⟩
  exact ⟨known.1.1, known.2⟩

/-! ## Without a fresh replica -/

theorem Sound.barred (sound : t.Sound settings) (plain : settings.torn = false) (dead : ¬ t.cluster.Alive)
    (completes : Completes t (t.step move) x) : x.statement = .rollback ∨ x.statement = .prepared := by
  cases completes with
  | @mk s w reply pending done =>
      have refused {node : Nat} (fresh : (resumeStatement w t.cluster s).store.isFresh node = true) : False :=
        dead ((served_resume w t.cluster s).alive.mp (alive_of_fresh fresh))
      have plain' := sound.plain plain
      have waits : Waits (blockOf x.line t.history) s x.statement w := sound.lines x.line _ pending
      cases waits with
      | preparing commits => exact (refused (Shows.fresh (.preparing (Or.inl plain')) done)).elim
      | applying commits => exact (refused (Shows.fresh (.applying (Or.inl plain')) done)).elim
      | reaching rests isOpen notCommit able =>
          cases reads : readsAccounts x.statement with
          | true => exact (refused (fresh_execute reads done)).elim
          | false =>
              cases statement : x.statement with
              | rollback => exact Or.inl rfl
              | prepared => exact Or.inr rfl
              | commit => exact absurd statement notCommit
              | begin | add | total | create | digest =>
                  rw [statement] at reads
                  cases reads

theorem dead_step (dead : ¬ t.cluster.Alive) (move : Move) : ¬ (t.step move).cluster.Alive := by
  by_cases isFault : ∃ fault, move = .fault fault
  · obtain ⟨fault, rfl⟩ := isFault
    exact fun alive => dead ((keeps_inject fault t.cluster).alive alive)
  · exact fun alive => dead ((served_step t fun fault same => isFault ⟨fault, same⟩).alive.mp alive)

theorem crash_of_dead (alive : t.cluster.Alive) (dead : ¬ (t.step move).cluster.Alive) :
    ∃ node, move = .fault (.crash node) ∧ ∀ other, t.cluster.isFresh other = true ↔ other = node := by
  by_cases isFault : ∃ fault, move = .fault fault
  · obtain ⟨fault, rfl⟩ := isFault
    have crashed {other : Nat} (fresh : t.cluster.isFresh other = true) : fault = .crash other :=
      (isFresh_inject fault fresh).resolve_left fun stays => dead (alive_of_fresh stays)
    obtain ⟨node, fresh⟩ := alive_iff.mp alive
    obtain rfl := crashed fresh
    refine ⟨node, rfl, fun other => ⟨fun fresh' => ?_, fun same => same ▸ fresh⟩⟩
    cases crashed fresh'
    rfl
  · exact absurd ((served_step t fun fault same => isFault ⟨fault, same⟩).alive.mpr alive) dead

/-! ## Exact recoverability -/

theorem faithful_run (settings : Settings) (moves : List Move) :
    Ledger.Faithful ⟨(run settings moves).cluster, ((run settings moves).ledger settings).changes⟩ := by
  have accounted : (run settings moves).Accounted settings :=
    List.foldlRecOn (motive := Accounted settings) moves step rfl fun _ accounted move _ => accounted.step move
  rw [← accounted.ledger_eq]
  exact Ledger.faithful_run settings _

theorem serves_when_connected {t : Traffic} (same : run settings moves = t) (connected : t.cluster.Connected)
    (alive : t.cluster.Alive) (inside : node < settings.nodes) :
    ∃ s, (Store.accept t.cluster node).2 = .ok s ∧
      (∀ random updates,
        (∀ update ∈ updates, ∃ r ∈ t.cluster.replicas, r.stale = false ∧
          r.accounts.contains update.uid = true) →
        (runAllAlone random (transaction updates) ⟨t.cluster, s, .ok .done, 0⟩).answer = .ok .done) ∧
      ∀ random statement, readsAccounts statement = true →
        ∃ reply, (runAlone random statement t.cluster s).answer = .ok reply := by
  subst same
  have faithful := faithful_run settings moves
  obtain ⟨s, accepted, -, idle, online⟩ := connected.accept alive (size_run settings moves ▸ inside)
  have able : s.status ≠ .inError := idle ▸ nofun
  refine ⟨s, accepted, fun random updates rows => ?_, fun random statement reads => ?_⟩
  · refine online.transaction able ?_ random
    rintro r' among' fresh' _ ⟨update, member, rfl⟩
    obtain ⟨r, among, fresh, row⟩ := rows update member
    obtain ⟨node, found⟩ := List.mem_iff_getElem?.mp among
    obtain ⟨node', found'⟩ := List.mem_iff_getElem?.mp among'
    rw [faithful.fresh node' r' found' fresh', ← faithful.fresh node r found fresh]
    exact row
  · obtain ⟨_, _, reply, _, done⟩ := online.reads able reads random
    exact ⟨reply, congrArg Alone.answer done⟩

theorem digest_when_fresh {t : Traffic} (same : run settings moves = t) (connected : t.cluster.Connected)
    (fresh : ∀ node < settings.nodes, t.cluster.isFresh node = true) :
    ∃ text, (∀ r ∈ t.cluster.replicas, r.stale = false ∧ r.accounts.digest = text) ∧
      ∀ node < settings.nodes, ∃ s, (Store.accept t.cluster node).2 = .ok s ∧
        ∀ random, (runAlone random .digest t.cluster s).answer = .ok (.digest text) := by
  subst same
  have faithful := faithful_run settings moves
  have size := size_run settings moves
  refine ⟨(tableOf ((run settings moves).ledger settings).changes).digest, fun r member => ?_,
    fun node inside => ?_⟩
  · obtain ⟨node, found⟩ := List.mem_iff_getElem?.mp member
    have inside : node < settings.nodes := size ▸ (List.getElem?_eq_some_iff.mp found).1
    obtain ⟨r', found', isFresh⟩ := isFresh_eq_true.mp (fresh node inside)
    obtain rfl := Option.some.inj (found'.symm.trans found)
    exact ⟨isFresh, congrArg Accounts.digest (faithful.fresh node r' found isFresh)⟩
  · obtain ⟨s, accepted, -, idle, online⟩ := connected.accept (alive_of_fresh (fresh node inside)) (size ▸ inside)
    exact ⟨s, accepted, fun random => online.digest (idle ▸ nofun) faithful random⟩

theorem barred_run (plain : settings.torn = false) (dead : ¬ (run settings moves).cluster.Alive)
    (more : List Move) : ∃ new, (run settings (moves ++ more)).history = new ++ (run settings moves).history ∧
      ∀ x ∈ new, ∀ reply, x.answer = .ok reply → x.statement = .rollback ∨ x.statement = .prepared := by
  rw [run_append]
  refine (history_foldl (P := fun _ x => x.statement = .rollback ∨ x.statement = .prepared)
    (I := fun t => t.Sound settings ∧ ¬ t.cluster.Alive)
    (fun _ known move _ => ⟨known.1.step plain move, dead_step known.2 move⟩) (fun _ _ _ _ _ => id)
    (fun _ known _ _ _ completes => known.1.barred plain known.2 completes) ⟨sound_run plain moves, dead⟩).2

/-- Whatever sessions and faults have done. If some replica is fresh, then as soon as all nodes have been started
and healed every node opens a session whose transactions commit when nothing disturbs them, and once each node
has answered one statement about its accounts all replicas are fresh with one digest. If none is fresh, nothing
that reads or commits succeeds ever again. And the step between the two is a crash of the only fresh replica. -/
theorem recoverable_while_fresh (settings : Settings) (moves : List Move) :
    let t := run settings moves
    (t.cluster.Alive → ∀ repair, Mends settings.nodes repair →
      let mended := run settings (moves ++ repair)
      (∀ node < settings.nodes, ∃ s, (Store.accept mended.cluster node).2 = .ok s ∧
        (∀ random updates,
          (∀ update ∈ updates, ∃ r ∈ mended.cluster.replicas, r.stale = false ∧
            r.accounts.contains update.uid = true) →
          (runAllAlone random (transaction updates) ⟨mended.cluster, s, .ok .done, 0⟩).answer = .ok .done) ∧
        ∀ random statement, readsAccounts statement = true →
          ∃ reply, (runAlone random statement mended.cluster s).answer = .ok reply) ∧
      ∀ later, (∀ fault, .fault fault ∉ later) →
        let last := run settings (moves ++ repair ++ later)
        ∃ new, last.history = new ++ mended.history ∧
          ((∀ node < settings.nodes, ∃ x ∈ new, readsAccounts x.statement = true ∧
              (∃ reply, x.answer = .ok reply) ∧
              ∃ line, last.lines[x.line]? = some line ∧ line.session.node = node) →
            ∃ text, (∀ r ∈ last.cluster.replicas, r.stale = false ∧ r.accounts.digest = text) ∧
              ∀ node < settings.nodes, ∃ s, (Store.accept last.cluster node).2 = .ok s ∧
                ∀ random, (runAlone random .digest last.cluster s).answer = .ok (.digest text))) ∧
    (¬ t.cluster.Alive → settings.torn = false → ∀ more, ∃ new,
      (run settings (moves ++ more)).history = new ++ t.history ∧
      ∀ x ∈ new, ∀ reply, x.answer = .ok reply → x.statement = .rollback ∨ x.statement = .prepared) ∧
    ∀ move, t.cluster.Alive → ¬ (t.step move).cluster.Alive →
      ∃ node, move = .fault (.crash node) ∧ ∀ other, t.cluster.isFresh other = true ↔ other = node := by
  intro t
  refine ⟨fun alive repair mends => ?_, fun dead plain more => barred_run plain dead more,
    fun _ => crash_of_dead⟩
  intro mended
  obtain ⟨connected, alive'⟩ : mended.cluster.Connected ∧ mended.cluster.Alive := mends.run alive
  refine ⟨fun node inside => serves_when_connected rfl connected alive' inside, fun later quiet => ?_⟩
  intro last
  -- No fault follows, so whoever reads after the repair has made its node fresh.
  obtain ⟨connected', new, history, reached⟩ :=
    reached_foldl connected (fitting_run settings (moves ++ repair)) quiet
  rw [← run_append] at connected' history reached
  refine ⟨new, history, fun all => digest_when_fresh rfl connected' fun node inside => ?_⟩
  obtain ⟨x, member, reads, ⟨reply, ok⟩, line, located, home⟩ := all node inside
  obtain ⟨line', located', fresh⟩ := reached x member reply ok reads
  cases located.symm.trans located'
  exact home ▸ fresh

/-- The nodes of a new bank stop one after the other, two of them by a crash. -/
def oneSurvivor : List Move :=
  [.connect 0, .issue 0 (.create 4), .resume 0, .fault (.crash 1), .fault (.isolate 0), .fault (.crash 2),
    .fault (.shutdown 0)]

def repairs : List Move :=
  [.fault (.heal 1), .fault (.start 0), .connect 0, .fault (.start 2), .fault (.heal 0), .fault (.start 1),
    .fault (.heal 2)]

def threeReads : List Move :=
  [.connect 1, .connect 2, .issue 1 .total, .issue 2 .begin, .issue 3 .total, .resume 3, .resume 2, .resume 1]

theorem below_three {node : Nat} (bound : node < 3) : node = 0 ∨ node = 1 ∨ node = 2 := by omega

theorem mends_repairs : Mends 3 repairs where
  harmless fault member := by
    simp only [repairs, List.mem_cons, Move.fault.injEq, reduceCtorEq, List.not_mem_nil, or_false,
      false_or] at member
    rcases member with rfl | rfl | rfl | rfl | rfl | rfl <;>
      first | exact ⟨_, Or.inl rfl⟩ | exact ⟨_, Or.inr rfl⟩
  starts node bound := by rcases below_three bound with rfl | rfl | rfl <;> simp [repairs]
  heals node bound := by rcases below_three bound with rfl | rfl | rfl <;> simp [repairs]

theorem recovery_of_oneSurvivor :
    let t := run {} oneSurvivor
    let mended := run {} (oneSurvivor ++ repairs)
    let last := run {} (oneSurvivor ++ repairs ++ threeReads)
    let dead := run {} (oneSurvivor ++ [.fault (.crash 0)])
    t.cluster.replicas.map (·.stale) = [false, true, true] ∧
    (∃ s, (Store.accept mended.cluster 1).2 = .ok s ∧
      (runAllAlone 7 (transaction [⟨1, -5⟩, ⟨2, 5⟩]) ⟨mended.cluster, s, .ok .done, 0⟩).answer = .ok .done) ∧
    (∃ text, ∀ r ∈ last.cluster.replicas, r.stale = false ∧ r.accounts.digest = text) ∧
    (∃ new, (run {} (oneSurvivor ++ [.fault (.crash 0)] ++ (repairs ++ threeReads))).history =
        new ++ dead.history ∧
      ∀ x ∈ new, ∀ reply, x.answer = .ok reply → x.statement = .rollback ∨ x.statement = .prepared) ∧
    ∃ node, Move.fault (.crash 0) = .fault (.crash node) ∧
      ∀ other, t.cluster.isFresh other = true ↔ other = node := by
  intro t mended last dead
  obtain ⟨recovers, -, lost⟩ := recoverable_while_fresh {} oneSurvivor
  have alive : t.cluster.Alive := by unfold Alive; decide
  have isDead : ¬ dead.cluster.Alive := by unfold Alive; decide
  obtain ⟨opens, later⟩ := recovers alive repairs mends_repairs
  obtain ⟨s, accepted, commits, -⟩ := opens 1 (by decide)
  have rows : ∀ update ∈ ([⟨1, -5⟩, ⟨2, 5⟩] : List Write), ∃ r ∈ mended.cluster.replicas, r.stale = false ∧
      r.accounts.contains update.uid = true := by decide
  obtain ⟨new, history, equal⟩ := later threeReads (by simp [threeReads])
  have answered : last.history =
      [⟨1, .total, .ok (.total 0)⟩, ⟨2, .begin, .ok .done⟩, ⟨3, .total, .ok (.total 0)⟩] ++ mended.history := rfl
  obtain rfl := List.append_cancel_right (history.symm.trans answered)
  obtain ⟨text, same, -⟩ := equal fun node bound => by
    rcases below_three bound with rfl | rfl | rfl
    · exact ⟨_, List.mem_cons_self, rfl, ⟨_, rfl⟩, _, rfl, rfl⟩
    · exact ⟨_, List.mem_cons_of_mem _ List.mem_cons_self, rfl, ⟨_, rfl⟩, _, rfl, rfl⟩
    · exact ⟨_, List.mem_cons_of_mem _ (List.mem_cons_of_mem _ List.mem_cons_self), rfl, ⟨_, rfl⟩, _, rfl, rfl⟩
  obtain ⟨-, barred, -⟩ := recoverable_while_fresh {} (oneSurvivor ++ [.fault (.crash 0)])
  have stepped : t.step (.fault (.crash 0)) = dead := (run_append {} oneSurvivor [.fault (.crash 0)]).symm
  refine ⟨by decide, ⟨s, accepted, commits 7 _ rows⟩, ⟨text, same⟩, barred isDead rfl (repairs ++ threeReads), ?_⟩
  exact lost (.fault (.crash 0)) alive (stepped.symm ▸ isDead)

end Traffic

end LedgerDrill.Cluster
