import LedgerDrill.Proofs.Workload.Soundness

namespace LedgerDrill.Workload.Drill
open Cluster Outcome

/-- However loops, faults, snapshots and aborts follow each other on accounts that were made once, the
balances of every copy add up to zero, and so does what every read of the total gives. A copy has no accounts
yet, or the balances that some first moves leave, which add up to zero over exact integers. A loop that watches
the total tells at its first successful read whether it expected something else than zero, and never again;
just these alarms are counted as violations. -/
theorem total_stays_zero (settings : Cluster.Settings) (plain : settings.torn = false)
    (calls : List Call) (n : Nat) (seeded : (Ledger.run settings calls).changes = [.create n])
    (events : List Event) :
    let d := run settings calls events
    (∀ r ∈ d.shared.store.replicas, r.accounts.total = 0 ∧
      (r.accounts = ∅ ∨ ∃ earlier, earlier <+: d.moves ∧ r.accounts.Conserves n earlier.flatten)) ∧
    (∀ node epoch c balance, d.shared.store.total node epoch = .ok (c, balance) → balance = 0) ∧
    (∀ i r watch, d.runners[i]? = some r → r.body = .sumTotal watch →
      d.readings i = [] ∨ ∃ k, d.readings i = (0 != watch.lastSeen) :: List.replicate k false) ∧
    ∀ node, d.violations node = d.alarms node := by
  intro d
  have sound : d.Sound settings n := sound_run plain seeded events
  have sane := sound.sane plain
  refine ⟨?_, ?_, ?_, sound.violations⟩
  · intro r member
    obtain ⟨node, found⟩ := List.mem_iff_getElem?.mp member
    obtain ⟨changes, isPrefix, same⟩ := sane.faithful.past node r found
    rw [same]
    rcases tableOf_of_prefix isPrefix with nothing | ⟨earlier, before, table⟩
    · exact ⟨by rw [nothing]; rfl, Or.inl nothing⟩
    · have conserves := conserves_moves fun writes member => sound.moves writes (before.subset member)
      rw [table]
      exact ⟨conserves.total, Or.inr ⟨earlier, before, conserves⟩⟩
  · intro node epoch c balance read
    obtain ⟨served, rfl⟩ := total_eq_ok read
    rw [sane.faithful.accountsOf served]
    exact sane.balanced.total
  · intro i r watch found watches
    obtain ⟨_, body, follows, _⟩ := sound.runners i r found
    rw [watches] at follows
    generalize d.readings i = readings at follows ⊢
    cases follows with
    | unread => exact Or.inl rfl
    | read k => exact Or.inr ⟨k, rfl⟩

/-- A transfer and two looks at a total that was expected to be five, while a third node is cut off. The
transfer loop is aborted in its second transfer. -/
def watchedTransfer : List Event :=
  [.launch 0 (.transfer 4 7) ⟨.zero, .zero⟩, .launch 1 (.sumTotal ⟨5⟩) ⟨.zero, .zero⟩,
    .fault (.isolate 2)] ++
  (List.range 7).map (fun random => .wake 0 false random 10) ++
  List.replicate 3 (.wake 1 false 0 20) ++ [.takeSnapshot 25] ++
  List.replicate 3 (.wake 0 false 1 30) ++ [.abort 0] ++ List.replicate 2 (.wake 1 false 0 40)

theorem violation_of_watched_transfer :
    let d := run {} [.openSession 0, .createAccounts 0 0 4] watchedTransfer
    d.readings 1 = [true, false] ∧ d.violations 1 = 1 ∧
      ∀ r ∈ d.shared.store.replicas, r.accounts.total = 0 := by
  intro d
  have conserved := total_stays_zero {} rfl [.openSession 0, .createAccounts 0 0 4] 4 (by decide)
    watchedTransfer
  exact ⟨by decide, (conserved.2.2.2 1).trans (by decide), fun r member => (conserved.1 r member).1⟩

/-- At every point of such a run the commits that are counted are as many as the moves of the ledger, and
its table is the seed with these moves: each takes its amount from the account that its transfer drew and
gives it to the next one, and both exist. Fresh replicas hold this table. -/
theorem commits_are_moves (settings : Cluster.Settings) (plain : settings.torn = false)
    (calls : List Call) (n : Nat) (seeded : (Ledger.run settings calls).changes = [.create n])
    (events : List Event) :
    let d := run settings calls events
    let l := Ledger.run settings d.calls
    l.cluster = d.shared.store ∧ l.changes = .create n :: d.moves.map .write ∧
    d.commits = d.moves.length ∧
    l.table = d.moves.foldl Accounts.apply (.seed n) ∧ (∀ writes ∈ d.moves, IsMove n writes) ∧
    l.table.entries = (List.range (n + 1)).map (fun uid => (uid, .ofInt (exactBalance d.moves.flatten uid))) ∧
    ∀ r ∈ d.shared.store.replicas, r.stale = false →
      r.accounts = d.moves.foldl Accounts.apply (.seed n) := by
  intro d l
  have sound : d.Sound settings n := sound_run plain seeded events
  have ledger : l = ⟨d.shared.store, .create n :: d.moves.map .write⟩ := sound.ledger
  have table : l.table = d.moves.foldl Accounts.apply (.seed n) := by
    rw [ledger]
    exact tableOf_commits n d.moves
  have written : l.table = (Accounts.seed n).apply d.moves.flatten := by
    rw [ledger]
    exact tableOf_writes n d.moves
  refine ⟨by rw [ledger], by rw [ledger], sound.commits, table, sound.moves, ?_, ?_⟩
  · rw [written, Accounts.entries_apply_seed]
  · intro r member fresh
    obtain ⟨node, found⟩ := List.mem_iff_getElem?.mp member
    rw [← table, ledger]
    exact (sound.sane plain).faithful.fresh node r found fresh

theorem commit_of_watched_transfer :
    let d := run {} [.openSession 0, .createAccounts 0 0 4] watchedTransfer
    d.moves = [moveWrites 2 7] ∧ d.commits = 1 ∧ d.snapshots.length = 1 := by
  intro d
  have counted := commits_are_moves {} rfl [.openSession 0, .createAccounts 0 0 4] 4 (by decide)
    watchedTransfer
  have moves : d.moves = [moveWrites 2 7] := by decide
  exact ⟨moves, counted.2.2.1.trans (congrArg List.length moves), by decide⟩

end LedgerDrill.Workload.Drill
