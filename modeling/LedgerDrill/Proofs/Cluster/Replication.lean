import LedgerDrill.Proofs.Cluster.Calls

/-!
Replicas against the one table of a ledger. A call that makes no change leaves every replica with the
accounts that it had or with those of a fresh one; a change reaches all fresh replicas that stay fresh.
So fresh replicas hold the table, and the others hold what the table was after some earlier change.
-/

namespace LedgerDrill.Cluster

variable {c c' : Cluster} {node epoch : Nat} {id : TransactionId} {e : StoreError}

theorem holds_eq_true {p : Replica → Bool} :
    c.holds node p = true ↔ ∃ r, c.replicas[node]? = some r ∧ p r = true := by
  unfold holds
  cases c.replicas[node]? <;> simp

theorem holds_eq_false {p : Replica → Bool} :
    c.holds node p = false ↔ ∀ r, c.replicas[node]? = some r → p r = false := by
  unfold holds
  cases c.replicas[node]? <;> simp

theorem accountsOf_eq {r : Replica} (found : c.replicas[node]? = some r) :
    c.accountsOf node = r.accounts := by
  simp [accountsOf, found]

theorem getElem?_modify (c : Cluster) (node : Nat) (f : Replica → Replica) (other : Nat) :
    (c.modify node f).replicas[other]? =
      c.replicas[other]?.map fun r => if node = other then f r else r := by
  rw [modify, List.getElem?_modify]
  rfl

theorem isOpen_eq_true :
    c.isOpen node epoch = true ↔
      ∃ r, c.replicas[node]? = some r ∧ r.up = true ∧ r.epoch = epoch := by
  simp [isOpen, holds_eq_true]

/-! ## What the operations do -/

theorem donor?_eq_some {donor : Nat} (found : c.donor? node = some donor) :
    donor ∈ c.reachable node ∧ donor ≠ node ∧
      ∃ r, c.replicas[donor]? = some r ∧ r.stale = false := by
  have member := List.mem_of_find?_eq_some found
  have suitable := List.find?_some found
  simp only [Bool.and_eq_true, bne_iff_ne, ne_eq, holds_eq_true, Bool.not_eq_true'] at suitable
  exact ⟨member, suitable⟩

theorem refresh_eq_ok (h : c.refresh node = .ok c') :
    (c' = c ∧ ∀ r, c.replicas[node]? = some r → r.stale = false) ∨
    (∃ donor, c.donor? node = some donor ∧ c.hasQuorum node = true ∧
      c' = c.modify node fun r => { r with accounts := c.accountsOf donor, stale := false }) := by
  unfold refresh at h
  split at h
  · next fresh =>
      cases h
      exact Or.inl ⟨rfl, holds_eq_false.mp (by simpa using fresh)⟩
  · simp only at h
    split at h
    · contradiction
    · next quorum =>
        split at h
        · contradiction
        · next donor found =>
            cases h
            exact Or.inr ⟨donor, found, by simpa using quorum, rfl⟩

theorem serve_eq_ok (h : c.serve node epoch = .ok c') :
    c.isOpen node epoch = true ∧ c.refresh node = .ok c' := by
  unfold serve at h
  split at h
  · next isOpen => exact ⟨isOpen, h⟩
  · contradiction

theorem bind_eq_ok {α β : Type} {x : Except StoreError α} {f : α → Except StoreError β} {b : β}
    (h : x >>= f = .ok b) : ∃ a, x = .ok a ∧ f a = .ok b := by
  cases x with
  | error e => contradiction
  | ok a => exact ⟨a, rfl, h⟩

theorem bind_eq_error {α β : Type} {x : Except StoreError α} {f : α → Except StoreError β}
    (h : x >>= f = .error e) : x = .error e ∨ ∃ a, x = .ok a ∧ f a = .error e := by
  cases x with
  | error e' => exact Or.inl (congrArg Except.error (Except.error.inj h))
  | ok a => exact Or.inr ⟨a, rfl, h⟩

theorem read_eq_ok {α : Type} {f : Cluster → α} {a : α}
    (h : (do let c ← c.serve node epoch; return (c, f c)) = Except.ok (c', a)) :
    c.serve node epoch = .ok c' ∧ a = f c' := by
  obtain ⟨served, step, same⟩ := bind_eq_ok h
  cases same
  exact ⟨step, rfl⟩

theorem write_eq_ok {f : Cluster → Cluster} {refusal : StoreError}
    (h : (do let c ← c.serve node epoch; if c.hasQuorum node then return f c else throw refusal) = Except.ok c') :
    ∃ served, c.serve node epoch = .ok served ∧ served.hasQuorum node = true ∧ c' = f served := by
  obtain ⟨served, step, made⟩ := bind_eq_ok h
  split at made
  · next quorum =>
      cases made
      exact ⟨served, step, quorum, rfl⟩
  · contradiction

theorem rowExists_eq_ok {uid : Nat} {isFound : Bool}
    (h : c.rowExists node epoch uid = .ok (c', isFound)) :
    c.serve node epoch = .ok c' ∧ isFound = (c'.accountsOf node).contains uid :=
  read_eq_ok h

theorem total_eq_ok {balance : Int} (h : c.total node epoch = .ok (c', balance)) :
    c.serve node epoch = .ok c' ∧ balance = (c'.accountsOf node).total :=
  read_eq_ok h

theorem digest_eq_ok {text : String} (h : c.digest node epoch = .ok (c', text)) :
    c.serve node epoch = .ok c' ∧ text = (c'.accountsOf node).digest :=
  read_eq_ok h

theorem prepare_eq_ok (h : c.prepare epoch id = .ok c') :
    ∃ served, c.serve id.node epoch = .ok served ∧ served.hasQuorum id.node = true ∧
      c' = served.modify id.node fun r => { r with prepared := r.prepared.insert id } :=
  write_eq_ok h

theorem createAccounts_eq_ok {n : Nat} (h : c.createAccounts node epoch n = .ok c') :
    ∃ served, c.serve node epoch = .ok served ∧ served.hasQuorum node = true ∧
      c' = served.replicate node fun _ => .seed n :=
  write_eq_ok h

theorem commitPrepared_cases (c : Cluster) (epoch : Nat) (id : TransactionId)
    (writes : List Write) :
    (c.isOpen id.node epoch = false ∧
      c.commitPrepared epoch id writes = (c, .error .connectionClosed)) ∨
    (c.isOpen id.node epoch = true ∧ c.commitPrepared epoch id writes =
      (c.forget id, .error (abortError id "cluster lost quorum during commit"))) ∨
    (c.isOpen id.node epoch = true ∧ (c.forget id).holds id.node (·.stale) = false ∧
      (c.forget id).hasQuorum id.node = true ∧
      c.commitPrepared epoch id writes =
        ((c.forget id).replicate id.node (·.apply writes), .ok ())) := by
  unfold commitPrepared
  by_cases isOpen : c.isOpen id.node epoch = true
  · refine Or.inr ?_
    simp only [isOpen, Bool.not_true, Bool.false_eq_true, ↓reduceIte]
    split
    · exact Or.inl ⟨trivial, rfl⟩
    · next able =>
        simp only [Bool.or_eq_true, Bool.not_eq_true', not_or, Bool.not_eq_true,
          Bool.not_eq_false] at able
        exact Or.inr ⟨trivial, able.1, able.2, rfl⟩
  · refine Or.inl ⟨by simpa using isOpen, ?_⟩
    simp [isOpen]

/-! ## Calls -/

def Call.reads? : Call → Option (Nat × Nat)
  | .rowExists node epoch _ | .total node epoch | .digest node epoch => some (node, epoch)
  | _ => none

/-- What a call makes of the cluster, with what was checked before. So what calls keep is shown way by way. -/
inductive Makes (c : Cluster) : Call → Cluster → Prop
  | nothing {call : Call} : Makes c call c
  | numbers : Makes c .takeNumber c.takeNumber.2
  | serves {call : Call} {node epoch : Nat} {c' : Cluster} (reads : call.reads? = some (node, epoch))
      (served : c.serve node epoch = .ok c') : Makes c call c'
  | prepares {epoch : Nat} {id : TransactionId} {c' : Cluster} (prepared : c.prepare epoch id = .ok c') :
      Makes c (.prepare epoch id) c'
  | commits (epoch : Nat) (id : TransactionId) (writes : List Write) :
      Makes c (.commitPrepared epoch id writes) (c.commitPrepared epoch id writes).1
  | aborts (id : TransactionId) : Makes c (.abortPrepared id) (c.forget id)
  | creates {node epoch n : Nat} {c' : Cluster} (created : c.createAccounts node epoch n = .ok c') :
      Makes c (.createAccounts node epoch n) c'
  | breaks (fault : Fault) : Makes c (.fault fault) (inject fault c).1

theorem makes (c : Cluster) (call : Call) : Makes c call (c.call call).1 := by
  cases call with
  | openSession | preparedOn => exact .nothing
  | takeNumber => exact .numbers
  | commitPrepared epoch id writes => exact .commits epoch id writes
  | abortPrepared id => exact .aborts id
  | fault fault => exact .breaks fault
  | rowExists node epoch uid =>
      simp only [Cluster.call]
      cases read : c.rowExists node epoch uid with
      | error e => exact .nothing
      | ok answer => exact .serves rfl (rowExists_eq_ok read).1
  | total node epoch =>
      simp only [Cluster.call]
      cases read : c.total node epoch with
      | error e => exact .nothing
      | ok answer => exact .serves rfl (total_eq_ok read).1
  | digest node epoch =>
      simp only [Cluster.call]
      cases read : c.digest node epoch with
      | error e => exact .nothing
      | ok answer => exact .serves rfl (digest_eq_ok read).1
  | prepare epoch id =>
      simp only [Cluster.call]
      cases prepared : c.prepare epoch id with
      | error e => exact .nothing
      | ok c' => exact .prepares prepared
  | createAccounts node epoch n =>
      simp only [Cluster.call]
      cases created : c.createAccounts node epoch n with
      | error e => exact .nothing
      | ok c' => exact .creates created

/-! ## Steps that make no change -/

/-- Every replica of `c'` has the accounts of a replica of `c`, and is stale if that one is. -/
structure Keeps (c c' : Cluster) : Prop where
  settings : c'.settings = c.settings
  replicas : ∀ (node : Nat) (r' : Replica), c'.replicas[node]? = some r' →
    ∃ (origin : Nat) (r : Replica), c.replicas[origin]? = some r ∧ r'.accounts = r.accounts ∧
      (r.stale = true → r'.stale = true)

theorem Keeps.refl (c : Cluster) : Keeps c c :=
  ⟨rfl, fun node r found => ⟨node, r, found, rfl, fun stale => stale⟩⟩

theorem Keeps.trans {c'' : Cluster} (first : Keeps c c') (second : Keeps c' c'') : Keeps c c'' := by
  refine ⟨second.settings.trans first.settings, ?_⟩
  intro node r'' found''
  obtain ⟨node', r', found', same', stale'⟩ := second.replicas node r'' found''
  obtain ⟨origin, r, found, same, stale⟩ := first.replicas node' r' found'
  exact ⟨origin, r, found, same'.trans same, fun h => stale' (stale h)⟩

theorem Keeps.of_replicas_eq (settings : c'.settings = c.settings)
    (same : c'.replicas = c.replicas) : Keeps c c' :=
  ⟨settings, fun node r found => ⟨node, r, same ▸ found, rfl, fun stale => stale⟩⟩

theorem keeps_modify (c : Cluster) (node : Nat) (f : Replica → Replica)
    (sameAccounts : ∀ r, (f r).accounts = r.accounts)
    (staysStale : ∀ r, r.stale = true → (f r).stale = true) : Keeps c (c.modify node f) := by
  refine ⟨rfl, ?_⟩
  intro other r' found
  rw [getElem?_modify] at found
  obtain ⟨r, before, rfl⟩ := Option.map_eq_some_iff.mp found
  refine ⟨other, r, before, ?_, ?_⟩
  · split
    · exact sameAccounts r
    · rfl
  · split
    · exact staysStale r
    · exact fun stale => stale

theorem keeps_refresh (h : c.refresh node = .ok c') : Keeps c c' := by
  rcases refresh_eq_ok h with ⟨rfl, _⟩ | ⟨donor, found, _, rfl⟩
  · exact Keeps.refl _
  · obtain ⟨_, _, giver, located, fresh⟩ := donor?_eq_some found
    refine ⟨rfl, ?_⟩
    intro other r' found'
    rw [getElem?_modify] at found'
    obtain ⟨r, before, rfl⟩ := Option.map_eq_some_iff.mp found'
    by_cases same : node = other
    · exact ⟨donor, giver, located, by simp [same, accountsOf_eq located], by simp [fresh]⟩
    · exact ⟨other, r, before, by simp [same], by simp [same]⟩

theorem keeps_serve (h : c.serve node epoch = .ok c') : Keeps c c' :=
  keeps_refresh (serve_eq_ok h).2

theorem keeps_prepare (h : c.prepare epoch id = .ok c') : Keeps c c' := by
  obtain ⟨served, step, _, rfl⟩ := prepare_eq_ok h
  exact (keeps_serve step).trans (keeps_modify _ _ _ (fun _ => rfl) fun _ stale => stale)

theorem keeps_forget (c : Cluster) (id : TransactionId) : Keeps c (c.forget id) :=
  keeps_modify c _ _ (fun _ => rfl) fun _ stale => stale

theorem keeps_inject (fault : Fault) (c : Cluster) : Keeps c (inject fault c).1 := by
  unfold inject
  split
  · exact Keeps.refl c
  · cases fault with
    | crash node => exact keeps_modify c node _ (fun _ => rfl) fun r _ => rfl
    | shutdown node => exact keeps_modify c node _ (fun _ => rfl) fun r stale => stale
    | start node => exact keeps_modify c node _ (fun _ => rfl) fun r stale => stale
    | isolate _ | heal _ | cut _ _ | restore _ _ => exact Keeps.of_replicas_eq rfl rfl

theorem keeps_call {call : Call} (silent : call.change? = none) : Keeps c (c.call call).1 := by
  have known := makes c call
  generalize (c.call call).1 = c' at known
  cases known with
  | nothing => exact Keeps.refl c
  | numbers => exact Keeps.of_replicas_eq rfl rfl
  | serves _ served => exact keeps_serve served
  | prepares prepared => exact keeps_prepare prepared
  | aborts id => exact keeps_forget c id
  | breaks fault => exact keeps_inject fault c
  | commits | creates => contradiction

theorem serve_fresh (h : c.serve node epoch = .ok c') :
    ∃ r, c'.replicas[node]? = some r ∧ r.stale = false := by
  obtain ⟨isOpen, refreshed⟩ := serve_eq_ok h
  obtain ⟨r, found, _⟩ := isOpen_eq_true.mp isOpen
  rcases refresh_eq_ok refreshed with ⟨rfl, fresh⟩ | ⟨donor, _, _, rfl⟩
  · exact ⟨r, found, fresh r found⟩
  · exact ⟨_, by rw [getElem?_modify, found]; rfl, by simp⟩

/-! ## Replicas and the table -/

structure Ledger.Faithful (l : Ledger) : Prop where
  fresh : ∀ (node : Nat) (r : Replica), l.cluster.replicas[node]? = some r → r.stale = false →
    r.accounts = l.table
  past : ∀ (node : Nat) (r : Replica), l.cluster.replicas[node]? = some r →
    ∃ earlier, earlier <+: l.changes ∧ r.accounts = tableOf earlier

theorem Ledger.Faithful.keep {changes : List Change} (faithful : Faithful ⟨c, changes⟩)
    (keeps : Keeps c c') : Faithful ⟨c', changes⟩ where
  fresh node r' found fresh := by
    obtain ⟨origin, r, located, same, stale⟩ := keeps.replicas node r' found
    have freshBefore : r.stale = false := by
      cases before : r.stale with
      | false => rfl
      | true => rw [stale before] at fresh; contradiction
    exact same.trans (faithful.fresh origin r located freshBefore)
  past node r' found := by
    obtain ⟨origin, r, located, same, _⟩ := keeps.replicas node r' found
    obtain ⟨earlier, isPrefix, eq⟩ := faithful.past origin r located
    exact ⟨earlier, isPrefix, same.trans eq⟩

theorem tableOf_append (changes : List Change) (change : Change) :
    tableOf (changes ++ [change]) = change.apply (tableOf changes) := by
  simp [tableOf]

theorem Ledger.Faithful.replicate {changes : List Change} (faithful : Faithful ⟨c, changes⟩)
    (origin : Nat) (change : Change) :
    Faithful ⟨c.replicate origin change.apply, changes ++ [change]⟩ where
  fresh node r' found fresh := by
    simp only [Cluster.replicate, List.getElem?_mapIdx] at found
    obtain ⟨r, before, rfl⟩ := Option.map_eq_some_iff.mp found
    split at fresh
    · next reached =>
        rw [if_pos reached, Ledger.table, tableOf_append]
        simp only [Bool.and_eq_true, Bool.not_eq_true'] at reached
        exact congrArg change.apply (faithful.fresh node r before reached.2)
    · contradiction
  past node r' found := by
    simp only [Cluster.replicate, List.getElem?_mapIdx] at found
    obtain ⟨r, before, rfl⟩ := Option.map_eq_some_iff.mp found
    split
    · next reached =>
        simp only [Bool.and_eq_true, Bool.not_eq_true'] at reached
        refine ⟨changes ++ [change], List.prefix_rfl, ?_⟩
        rw [tableOf_append]
        exact congrArg change.apply (faithful.fresh node r before reached.2)
    · obtain ⟨earlier, isPrefix, eq⟩ := faithful.past node r before
      exact ⟨earlier, isPrefix.trans (List.prefix_append _ _), eq⟩

theorem Ledger.Faithful.accountsOf {changes : List Change} (faithful : Faithful ⟨c, changes⟩)
    (served : c.serve node epoch = .ok c') : c'.accountsOf node = tableOf changes := by
  obtain ⟨r, found, fresh⟩ := serve_fresh served
  rw [accountsOf_eq found]
  exact (faithful.keep (keeps_serve served)).fresh node r found fresh

theorem Ledger.faithful_new (settings : Settings) : Faithful ⟨new settings, []⟩ := by
  have empty : ∀ (node : Nat) (r : Replica), (new settings).replicas[node]? = some r →
      r.accounts = ∅ := by
    intro node r found
    simp only [new, List.getElem?_replicate] at found
    split at found
    · cases found; rfl
    · contradiction
  exact ⟨fun node r found _ => empty node r found,
    fun node r found => ⟨[], List.prefix_rfl, empty node r found⟩⟩

theorem Ledger.call_of_silent {l : Ledger} {call : Call} (silent : call.change? = none) :
    l.call call = ⟨(l.cluster.call call).1, l.changes⟩ := by
  simp [Ledger.call, changesOf, silent]

theorem Ledger.changes_after_silent {l : Ledger} {calls : List Call}
    (silent : ∀ call ∈ calls, call.change? = none) : (l.after calls).changes = l.changes := by
  induction calls generalizing l with
  | nil => rfl
  | cons call rest ih =>
      have first := Ledger.call_of_silent (l := l) (silent call List.mem_cons_self)
      have later := ih (l := l.call call) fun other member =>
        silent other (List.mem_cons_of_mem _ member)
      rw [first] at later
      exact (congrArg (fun l => (Ledger.after l rest).changes) first).trans later

theorem Ledger.changes_grow (l : Ledger) (calls : List Call) : l.changes <+: (l.after calls).changes :=
  List.foldlRecOn (motive := fun l' : Ledger => l.changes <+: l'.changes) calls Ledger.call List.prefix_rfl
    fun _ isPrefix _ _ => isPrefix.trans (List.prefix_append _ _)

theorem Ledger.call_cases (l : Ledger) (call : Call) :
    ∃ kept, Keeps l.cluster kept ∧
      (l.call call = ⟨kept, l.changes⟩ ∨
        ∃ origin change, l.call call = ⟨kept.replicate origin change.apply, l.changes ++ [change]⟩) := by
  by_cases silent : call.change? = none
  · exact ⟨_, keeps_call silent, Or.inl (Ledger.call_of_silent silent)⟩
  · cases call <;> simp only [Call.change?, not_true_eq_false, reduceCtorEq] at silent
    case commitPrepared epoch id writes =>
      simp only [Ledger.call, Cluster.call]
      rcases commitPrepared_cases l.cluster epoch id writes with
        ⟨_, h⟩ | ⟨_, h⟩ | ⟨_, _, _, h⟩ <;> rw [h]
      · exact ⟨_, Keeps.refl _, Or.inl (by simp [changesOf, Except.toOption])⟩
      · exact ⟨_, keeps_forget _ id, Or.inl (by simp [changesOf, Except.toOption])⟩
      · exact ⟨_, keeps_forget _ id, Or.inr ⟨id.node, .write writes, rfl⟩⟩
    case createAccounts node epoch n =>
      simp only [Ledger.call, Cluster.call]
      cases h : l.cluster.createAccounts node epoch n with
      | error e => exact ⟨_, Keeps.refl _, Or.inl (by simp [changesOf])⟩
      | ok c' =>
          obtain ⟨served, step, _, rfl⟩ := createAccounts_eq_ok h
          exact ⟨_, keeps_serve step, Or.inr ⟨node, .create n, rfl⟩⟩

theorem Ledger.Faithful.call {l : Ledger} (faithful : l.Faithful) (call : Call) :
    (l.call call).Faithful := by
  obtain ⟨kept, keeps, same | ⟨origin, change, same⟩⟩ := l.call_cases call
  · rw [same]
    exact faithful.keep keeps
  · rw [same]
    exact (faithful.keep keeps).replicate origin change

theorem Ledger.settings_call (l : Ledger) (call : Call) :
    (l.call call).cluster.settings = l.cluster.settings := by
  obtain ⟨kept, keeps, same | ⟨origin, change, same⟩⟩ := l.call_cases call <;>
    rw [same] <;> exact keeps.settings

theorem Ledger.settings_run (settings : Settings) (calls : List Call) :
    (Ledger.run settings calls).cluster.settings = settings :=
  List.foldlRecOn (motive := fun l => l.cluster.settings = settings) calls Ledger.call rfl
    fun l same call _ => (l.settings_call call).trans same

theorem Ledger.Faithful.after {l : Ledger} (faithful : l.Faithful) (calls : List Call) :
    (l.after calls).Faithful :=
  List.foldlRecOn calls Ledger.call faithful fun _ faithful' call _ => faithful'.call call

theorem Ledger.faithful_run (settings : Settings) (calls : List Call) :
    (Ledger.run settings calls).Faithful :=
  (faithful_new settings).after calls

/-! ## One copy -/

/-- However calls and faults follow each other, the replicas that are not stale equal the table of the
changes that succeeded, and every answer about the data is an answer of that table. -/
theorem answers_from_one_table (settings : Settings) (calls : List Call) :
    let l := Ledger.run settings calls
    (∀ r ∈ l.cluster.replicas, r.stale = false → r.accounts = l.table) ∧
    (∀ r ∈ l.cluster.replicas, ∀ r' ∈ l.cluster.replicas, r.stale = false → r'.stale = false →
      r.accounts = r'.accounts) ∧
    ∀ (node epoch : Nat) (c : Cluster),
      (∀ uid isFound, l.cluster.rowExists node epoch uid = .ok (c, isFound) →
        isFound = l.table.contains uid) ∧
      (∀ balance, l.cluster.total node epoch = .ok (c, balance) → balance = l.table.total) ∧
      ∀ text, l.cluster.digest node epoch = .ok (c, text) → text = l.table.digest := by
  intro l
  have faithful : l.Faithful := Ledger.faithful_run settings calls
  have fresh : ∀ r ∈ l.cluster.replicas, r.stale = false → r.accounts = l.table := by
    intro r member isFresh
    obtain ⟨node, found⟩ := List.mem_iff_getElem?.mp member
    exact faithful.fresh node r found isFresh
  refine ⟨fresh, ?_, ?_⟩
  · intro r member r' member' isFresh isFresh'
    rw [fresh r member isFresh, fresh r' member' isFresh']
  · intro node epoch c
    refine ⟨?_, ?_, ?_⟩
    · intro uid isFound h
      obtain ⟨served, rfl⟩ := rowExists_eq_ok h
      rw [faithful.accountsOf served]
      rfl
    · intro balance h
      obtain ⟨served, rfl⟩ := total_eq_ok h
      rw [faithful.accountsOf served]
      rfl
    · intro text h
      obtain ⟨served, rfl⟩ := digest_eq_ok h
      rw [faithful.accountsOf served]
      rfl

def missedTransfer : List Call :=
  [.openSession 0, .createAccounts 0 0 4, .fault (.isolate 2), .prepare 0 ⟨0, 1, 0⟩,
    .commitPrepared 0 ⟨0, 1, 0⟩ [⟨1, -5⟩, ⟨2, 5⟩], .fault (.shutdown 1), .fault (.heal 2)]

theorem answers_after_missed_transfer :
    let l := Ledger.run {} missedTransfer
    l.cluster.replicas.map (·.stale) = [false, false, true] ∧
    l.table.values = [0, -5, 5, 0, 0] ∧
    l.cluster.accountsOf 1 = l.table ∧
    l.cluster.accountsOf 2 ≠ l.table ∧
    ∃ c balance, l.cluster.total 2 0 = .ok (c, balance) ∧ balance = l.table.total := by
  intro l
  have answers := answers_from_one_table {} missedTransfer
  have stopped : ∃ r ∈ l.cluster.replicas, r.stale = false ∧ r.accounts = l.cluster.accountsOf 1 :=
    ⟨l.cluster.replicas[1], List.getElem_mem _, by decide, rfl⟩
  obtain ⟨r, member, fresh, same⟩ := stopped
  have served : (l.cluster.total 2 0).toOption.isSome = true := by decide
  obtain ⟨⟨c, balance⟩, h⟩ := Option.isSome_iff_exists.mp served
  have read : l.cluster.total 2 0 = .ok (c, balance) := by
    cases answer : l.cluster.total 2 0 with
    | error e => rw [answer] at h; contradiction
    | ok pair => rw [answer] at h; exact congrArg Except.ok (Option.some.inj h)
  exact ⟨by decide, by decide, same.symm.trans (answers.1 r member fresh), by decide,
    c, balance, read, (answers.2.2 2 0 c).2.1 balance read⟩

end LedgerDrill.Cluster
