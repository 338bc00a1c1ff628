import LedgerDrill.Proofs.Cluster.Prepared

namespace LedgerDrill.Cluster

variable {c c' c'' : Cluster} {s : Session} {node origin epoch : Nat} {id : TransactionId}
variable {writes : List Write} {reply reply' : Reply} {w : Waiting} {call : Call} {calls : List Call}

def isFresh (c : Cluster) (node : Nat) : Bool := c.holds node (!·.stale)

def Alive (c : Cluster) : Prop := ∃ r ∈ c.replicas, r.stale = false

def Central (c : Cluster) (node : Nat) : Prop :=
  ∀ origin, c.holds origin (·.up) = true → c.hasQuorum origin = true → node ∈ c.reachable origin

theorem isFresh_eq_true : c.isFresh node = true ↔ ∃ r, c.replicas[node]? = some r ∧ r.stale = false := by
  simp [isFresh, holds_eq_true]

theorem isFresh_of_not_stale {r : Replica} (found : c.replicas[node]? = some r)
    (fresh : c.holds node (·.stale) = false) : c.isFresh node = true :=
  isFresh_eq_true.mpr ⟨r, found, holds_eq_false.mp fresh r found⟩

theorem alive_iff : c.Alive ↔ ∃ node, c.isFresh node = true := by
  constructor
  · rintro ⟨r, member, fresh⟩
    obtain ⟨node, found⟩ := List.mem_iff_getElem?.mp member
    exact ⟨node, isFresh_eq_true.mpr ⟨r, found, fresh⟩⟩
  · rintro ⟨node, isFresh⟩
    obtain ⟨r, found, fresh⟩ := isFresh_eq_true.mp isFresh
    exact ⟨r, List.mem_of_getElem? found, fresh⟩

theorem alive_of_fresh (fresh : c.isFresh node = true) : c.Alive := alive_iff.mpr ⟨node, fresh⟩

theorem mem_reachable {peer : Nat} :
    peer ∈ c.reachable node ↔ c.holds peer (·.up) = true ∧ c.links.connected node peer = true := by
  rw [reachable, List.mem_filter, List.mem_range, Bool.and_eq_true]
  refine ⟨And.right, fun known => ⟨?_, known⟩⟩
  obtain ⟨r, found, -⟩ := holds_eq_true.mp known.1
  exact (List.getElem?_eq_some_iff.mp found).1

theorem reachable_self (up : c.holds node (·.up) = true) : node ∈ c.reachable node :=
  mem_reachable.mpr ⟨up, by simp [Links.connected]⟩

theorem Keeps.alive (keeps : Keeps c c') (alive : c'.Alive) : c.Alive := by
  obtain ⟨r', member, fresh⟩ := alive
  obtain ⟨node, found'⟩ := List.mem_iff_getElem?.mp member
  obtain ⟨origin, r, found, -, stale⟩ := keeps.replicas node r' found'
  refine ⟨r, List.mem_of_getElem? found, Bool.eq_false_iff.mpr fun isStale => ?_⟩
  rw [stale isStale] at fresh
  contradiction

theorem Alike.reachable (alike : Alike c c') (node : Nat) : c'.reachable node = c.reachable node := by
  simp only [Cluster.reachable, holds_up, alike.size, alike.power, alike.links]

theorem Alike.up (alike : Alike c c') (node : Nat) : c'.holds node (·.up) = c.holds node (·.up) := by
  rw [holds_up, holds_up, alike.power]

theorem Central.alike (central : Central c node) (alike : Alike c c') : Central c' node := by
  intro origin up quorum
  rw [alike.reachable]
  exact central origin (alike.up origin ▸ up) (alike.hasQuorum origin ▸ quorum)

/-! ## What sessions leave as it was -/

/-- Power, links, whether there is a fresh replica, and the fresh replicas that every change reaches. -/
structure Served (c c' : Cluster) : Prop where
  alike : Alike c c'
  alive : c'.Alive ↔ c.Alive
  fresh : ∀ node, Central c node → c.isFresh node = true → c'.isFresh node = true

theorem Served.refl (c : Cluster) : Served c c := ⟨Alike.refl c, Iff.rfl, fun _ _ => id⟩

theorem Served.trans (first : Served c c') (second : Served c' c'') : Served c c'' where
  alike := first.alike.trans second.alike
  alive := second.alive.trans first.alive
  fresh node central fresh :=
    second.fresh node (central.alike first.alike) (first.fresh node central fresh)

theorem Served.of_keeps (alike : Alike c c') (keeps : Keeps c c')
    (fresh : ∀ node, c.isFresh node = true → c'.isFresh node = true) : Served c c' where
  alike := alike
  alive := ⟨keeps.alive, fun alive => by
    obtain ⟨node, isFresh⟩ := alive_iff.mp alive
    exact alive_of_fresh (fresh node isFresh)⟩
  fresh node _ := fresh node

theorem isFresh_modify (c : Cluster) (node : Nat) {f : Replica → Replica} {other : Nat}
    (stays : ∀ r, r.stale = false → (f r).stale = false) (fresh : c.isFresh other = true) :
    (c.modify node f).isFresh other = true := by
  obtain ⟨r, found, isFresh⟩ := isFresh_eq_true.mp fresh
  refine isFresh_eq_true.mpr ⟨_, by rw [getElem?_modify, found, Option.map_some], ?_⟩
  split
  · exact stays r isFresh
  · exact isFresh

theorem isFresh_serve (served : c.serve node epoch = .ok c') {other : Nat} (fresh : c.isFresh other = true) :
    c'.isFresh other = true := by
  rcases refresh_eq_ok (serve_eq_ok served).2 with ⟨rfl, -⟩ | ⟨donor, -, -, rfl⟩
  · exact fresh
  · exact isFresh_modify c node (fun _ _ => rfl) fresh

theorem served_serve (served : c.serve node epoch = .ok c') : Served c c' :=
  .of_keeps (alike_serve served) (keeps_serve served) fun _ => isFresh_serve served

theorem served_forget (c : Cluster) (id : TransactionId) : Served c (c.forget id) :=
  .of_keeps (alike_forget c id) (keeps_forget c id) fun _ => isFresh_modify c id.node fun _ fresh => fresh

theorem served_prepare (prepared : c.prepare epoch id = .ok c') : Served c c' := by
  obtain ⟨c₁, step, -, rfl⟩ := prepare_eq_ok prepared
  refine (served_serve step).trans (.of_keeps (alike_modify c₁ id.node fun _ => rfl) ?_ fun _ => ?_)
  · exact keeps_modify c₁ id.node _ (fun _ => rfl) fun _ stale => stale
  · exact isFresh_modify c₁ id.node fun _ fresh => fresh

theorem isFresh_replicate (c : Cluster) (origin : Nat) (f : Accounts → Accounts) (node : Nat) :
    (c.replicate origin f).isFresh node = ((c.reachable origin).contains node && c.isFresh node) := by
  rw [isFresh, isFresh, holds, holds, replicate, List.getElem?_mapIdx]
  cases c.replicas[node]? with
  | none => simp
  | some r => cases (c.reachable origin).contains node <;> cases stale : r.stale <;> simp [stale]

theorem isFresh_origin (up : c.holds origin (·.up) = true) (fresh : c.isFresh origin = true)
    (f : Accounts → Accounts) : (c.replicate origin f).isFresh origin = true := by
  rw [isFresh_replicate, fresh, Bool.and_true, List.contains_iff_mem]
  exact reachable_self up

theorem served_replicate (up : c.holds origin (·.up) = true) (fresh : c.isFresh origin = true)
    (quorum : c.hasQuorum origin = true) (f : Accounts → Accounts) : Served c (c.replicate origin f) where
  alike := alike_replicate c origin f
  alive := ⟨fun _ => alive_of_fresh fresh, fun _ => alive_of_fresh (isFresh_origin up fresh f)⟩
  fresh node central isFresh := by
    rw [isFresh_replicate, isFresh, Bool.and_true, List.contains_iff_mem]
    exact central origin up quorum

theorem up_of_isOpen (isOpen : c.isOpen node epoch = true) : c.holds node (·.up) = true := by
  obtain ⟨r, found, up, -⟩ := isOpen_eq_true.mp isOpen
  exact holds_eq_true.mpr ⟨r, found, up⟩

theorem serve_able (served : c.serve node epoch = .ok c') :
    c'.isFresh node = true ∧ c'.holds node (·.up) = true :=
  ⟨isFresh_eq_true.mpr (serve_fresh served), up_of_isOpen (isOpen_serve served)⟩

theorem served_createAccounts {n : Nat} (created : c.createAccounts node epoch n = .ok c') : Served c c' := by
  obtain ⟨c₁, step, quorum, rfl⟩ := createAccounts_eq_ok created
  obtain ⟨fresh, up⟩ := serve_able step
  exact (served_serve step).trans (served_replicate up fresh quorum _)

theorem commitPrepared_able (isOpen : c.isOpen id.node epoch = true)
    (fresh : (c.forget id).holds id.node (·.stale) = false) :
    (c.forget id).isFresh id.node = true ∧ (c.forget id).holds id.node (·.up) = true := by
  have up := ((alike_forget c id).up id.node).trans (up_of_isOpen isOpen)
  obtain ⟨r, found, -⟩ := holds_eq_true.mp up
  exact ⟨isFresh_of_not_stale found fresh, up⟩

theorem served_commitPrepared (c : Cluster) (epoch : Nat) (id : TransactionId) (writes : List Write) :
    Served c (c.commitPrepared epoch id writes).1 := by
  rcases commitPrepared_cases c epoch id writes with ⟨_, eq⟩ | ⟨_, eq⟩ | ⟨isOpen, fresh, quorum, eq⟩ <;> rw [eq]
  · exact Served.refl c
  · exact served_forget c id
  · obtain ⟨isFresh, up⟩ := commitPrepared_able isOpen fresh
    exact (served_forget c id).trans (served_replicate up isFresh quorum (·.apply writes))

/-! ## Calls of sessions -/

def Call.isFault : Call → Bool
  | .fault _ => true
  | _ => false

theorem served_call (c : Cluster) (session : call.isFault = false) : Served c (c.call call).1 := by
  have known := makes c call
  generalize (c.call call).1 = c' at known
  cases known with
  | nothing => exact Served.refl c
  | numbers => exact ⟨⟨rfl, rfl⟩, Iff.rfl, fun _ _ => id⟩
  | serves _ served => exact served_serve served
  | prepares prepared => exact served_prepare prepared
  | commits epoch id writes => exact served_commitPrepared c epoch id writes
  | aborts id => exact served_forget c id
  | creates created => exact served_createAccounts created
  | breaks => cases session

theorem served_after (l : Ledger) (session : ∀ call ∈ calls, call.isFault = false) :
    Served l.cluster (l.after calls).cluster :=
  Ledger.after_related Served.refl Served.trans (fun c call member => served_call c (session call member)) l

def Call.isOrdinary : Call → Bool
  | .fault _ | .createAccounts .. => false
  | _ => true

theorem Call.isFault_of_isOrdinary (ordinary : call.isOrdinary = true) : call.isFault = false := by
  cases call <;> first | rfl | contradiction

theorem Call.isOrdinary_of_isInquiry (inquiry : call.isInquiry = true) : call.isOrdinary = true := by
  cases call <;> first | rfl | contradiction

theorem isOrdinary_applyCalls (member : call ∈ applyCalls c s id writes) : call.isOrdinary = true := by
  rcases mem_applyCalls member with rfl | ⟨part, rfl⟩ <;> rfl

theorem isOrdinary_calls (notCreate : ∀ n, w ≠ .reaching (.create n)) (member : call ∈ w.calls c s) :
    call.isOrdinary = true := by
  cases w with
  | reaching statement =>
      have other (n : Nat) (same : statement = .create n) : False := notCreate n (congrArg _ same)
      exact Call.isOrdinary_of_isInquiry (isInquiry_executeCalls other member)
  | applying id writes reply => exact isOrdinary_applyCalls member
  | tearing id writes reply => rcases mem_tornCalls member with rfl | ⟨part, rfl⟩ <;> rfl
  | preparing id writes reply =>
      rcases List.mem_cons.mp member with rfl | member
      · rfl
      · split at member
        · contradiction
        · split at member
          · contradiction
          · exact isOrdinary_applyCalls member

theorem isFault_calls (member : call ∈ w.calls c s) : call.isFault = false := by
  by_cases creates : ∃ n, w = .reaching (.create n)
  · obtain ⟨n, rfl⟩ := creates
    cases List.mem_singleton.mp member
    rfl
  · exact Call.isFault_of_isOrdinary (isOrdinary_calls (fun n same => creates ⟨n, same⟩) member)

theorem served_resume (w : Waiting) (c : Cluster) (s : Session) :
    Served c (resumeStatement w c s).store := by
  have made : (Ledger.after ⟨c, []⟩ (w.calls c s)).cluster = (resumeStatement w c s).store :=
    Ledger.cluster_calls w
  exact made ▸ served_after ⟨c, []⟩ fun _ => isFault_calls

theorem served_start (statement : Statement) (c : Cluster) (s : Session) :
    Served c (startStatement statement c s).store := by
  have made : (Ledger.after ⟨c, []⟩ (startCalls s statement)).cluster = (startStatement statement c s).store :=
    Ledger.cluster_startCalls statement
  exact made ▸ served_after ⟨c, []⟩ fun _ member =>
    Call.isFault_of_isOrdinary (Call.isOrdinary_of_isInquiry (isInquiry_startCalls member))

/-! ## Faults -/

theorem isFresh_inject (fault : Fault) (fresh : c.isFresh node = true) :
    (inject fault c).1.isFresh node = true ∨ fault = .crash node := by
  unfold inject
  split
  · exact Or.inl fresh
  · cases fault with
    | isolate | heal | cut | restore => exact Or.inl fresh
    | shutdown other => exact Or.inl (isFresh_modify c other (fun _ isFresh => isFresh) fresh)
    | start other => exact Or.inl (isFresh_modify c other (fun _ isFresh => isFresh) fresh)
    | crash other =>
        by_cases same : other = node
        · exact Or.inr (same ▸ rfl)
        · obtain ⟨r, found, isFresh⟩ := isFresh_eq_true.mp fresh
          refine Or.inl (isFresh_eq_true.mpr ⟨r, ?_, isFresh⟩)
          rw [applyFault, stopNode, getElem?_modify, found, Option.map_some, if_neg same]

theorem size_inject (fault : Fault) (c : Cluster) : (inject fault c).1.size = c.size := by
  unfold inject
  split
  · rfl
  · cases fault with
    | crash node | shutdown node => exact size_modify c node _
    | start node => exact size_modify c node _
    | isolate | heal | cut | restore => rfl

theorem size_call (c : Cluster) (call : Call) : (c.call call).1.size = c.size := by
  cases session : call.isFault with
  | false => exact (served_call c session).alike.size
  | true =>
      cases call <;> cases session
      exact size_inject _ c

theorem size_ledger (settings : Settings) (calls : List Call) :
    (Ledger.run settings calls).cluster.size = settings.nodes :=
  List.foldlRecOn (motive := fun l : Ledger => l.cluster.size = settings.nodes) calls Ledger.call
    (List.length_replicate ..) fun l size call _ => (size_call l.cluster call).trans size

/-! ## Statements that succeed -/

theorem fresh_execute {statement : Statement} (reads : readsAccounts statement = true)
    (done : (execute c s statement).next = .answered (.ok reply)) :
    (execute c s statement).store.isFresh s.node = true := by
  have known := executes c s statement
  generalize execute c s statement = turn at known done ⊢
  cases known with
  | refused | offline | commits => cases done
  | counts | lost | rollsBack | ends => cases reads
  | begins served | misses served | buffers served | totals served | digests served =>
      exact (serve_able served).1
  | creates served quorum =>
      obtain ⟨fresh, up⟩ := serve_able served
      exact isFresh_origin up fresh _

theorem fresh_commitPrepared (done : (c.commitPrepared epoch id writes).2 = .ok ()) :
    (c.commitPrepared epoch id writes).1.isFresh id.node = true := by
  rcases commitPrepared_cases c epoch id writes with ⟨_, eq⟩ | ⟨_, eq⟩ | ⟨isOpen, fresh, -, eq⟩ <;>
    rw [eq] at done ⊢
  · contradiction
  · contradiction
  · obtain ⟨isFresh, up⟩ := commitPrepared_able isOpen fresh
    exact isFresh_origin up isFresh _

theorem finishCommit_ok {result : Except StoreError Unit}
    (done : (finishCommit c s id reply result).next = .answered (.ok reply')) :
    result = .ok () ∧ (finishCommit c s id reply result).store = c := by
  cases result with
  | ok => exact ⟨rfl, rfl⟩
  | error e => cases done

theorem fresh_puts {torn : Bool} {turn : SessionTurn} (shows : torn = false ∨ writes ≠ [])
    (puts : Puts c s id reply torn writes turn) (done : turn.next = .answered (.ok reply')) :
    turn.store.isFresh id.node = true := by
  cases puts with
  | nothing => exact absurd rfl (shows.resolve_left nofun)
  | next => cases done
  | last | whole =>
      obtain ⟨committed, store⟩ := finishCommit_ok done
      rw [store]
      exact fresh_commitPrepared committed

/-- A commit whose success shows that its node was fresh. A torn commit of nothing does not look. -/
inductive Shows (torn : Bool) : TransactionId → Waiting → Prop
  | preparing {id : TransactionId} {writes : List Write} {reply : Reply} (shows : torn = false ∨ writes ≠ []) :
      Shows torn id (.preparing id writes reply)
  | applying {id : TransactionId} {writes : List Write} {reply : Reply} (shows : torn = false ∨ writes ≠ []) :
      Shows torn id (.applying id writes reply)
  | tearing {id : TransactionId} {writes : List Write} {reply : Reply} (some : writes ≠ []) :
      Shows torn id (.tearing id writes reply)

theorem Carries.shows (carries : Carries node w) (torn : Bool) : ∃ id, id.node = node ∧ Shows torn id w := by
  cases carries with
  | preparing home some => exact ⟨_, home, .preparing (Or.inr some)⟩
  | applying home some => exact ⟨_, home, .applying (Or.inr some)⟩
  | tearing home some => exact ⟨_, home, .tearing some⟩

theorem Shows.fresh (shows : Shows c.settings.torn id w)
    (done : (resumeStatement w c s).next = .answered (.ok reply)) :
    (resumeStatement w c s).store.isFresh id.node = true := by
  have known := resumes w c s
  generalize resumeStatement w c s = turn at known done
  cases shows with
  | applying shows =>
      cases known with
      | applying puts => exact fresh_puts shows puts done
  | tearing some =>
      cases known with
      | tearing puts => exact fresh_puts (Or.inr some) puts done
  | preparing shows =>
      cases known with
      | refused | prepared => cases done
      | goesOn prepared puts =>
          rw [← (keeps_prepare prepared).settings] at shows
          exact fresh_puts shows puts done

end LedgerDrill.Cluster
