import LedgerDrill.Proofs.Cluster.Prepared
import LedgerDrill.Proofs.Cluster.Progress

namespace LedgerDrill.Cluster
open Workload

variable {c c' : Cluster} {s : Session} {node epoch : Nat} {id : TransactionId} {writes : List Write} {reply : Reply}

/-! ## Whether commits are torn -/

def setTorn (c : Cluster) (torn : Bool) : Cluster := { c with settings.torn := torn }

theorem serve_setTorn (c : Cluster) (torn : Bool) (node epoch : Nat) :
    (c.setTorn torn).serve node epoch = (c.serve node epoch).map (·.setTorn torn) := by
  have isOpen : (c.setTorn torn).isOpen node epoch = c.isOpen node epoch := rfl
  have holds : (c.setTorn torn).holds node (·.stale) = c.holds node (·.stale) := rfl
  have quorum : (c.setTorn torn).hasQuorum node = c.hasQuorum node := rfl
  have donor : (c.setTorn torn).donor? node = c.donor? node := rfl
  simp only [serve, refresh, isOpen, holds, quorum, donor]
  split
  · split
    · rfl
    · split
      · rfl
      · split <;> rfl
  · rfl

theorem prepare_setTorn (c : Cluster) (torn : Bool) (epoch : Nat) (id : TransactionId) :
    (c.setTorn torn).prepare epoch id = (c.prepare epoch id).map (·.setTorn torn) := by
  rw [prepare, serve_setTorn, prepare]
  cases c.serve id.node epoch with
  | error e => rfl
  | ok served =>
      have quorum : (served.setTorn torn).hasQuorum id.node = served.hasQuorum id.node := rfl
      simp only [Except.map, bind, Except.bind, quorum]
      split <;> rfl

/-! ## Names on a node -/

def Distinct (c : Cluster) : Prop :=
  ∀ (node : Nat) (r : Replica), c.replicas[node]? = some r → r.up = true → r.prepared.Nodup

theorem Distinct.thin (distinct : c.Distinct) (thins : Thins c c') : c'.Distinct := by
  intro node r' found' up'
  rcases thins.replicas node r' found' up' with none | ⟨r, found, up, -, fewer⟩
  · rw [none]
    exact List.nodup_nil
  · exact fewer.nodup (distinct node r found up)

theorem Distinct.prepare (distinct : c.Distinct) (prepared : c.prepare epoch id = .ok c') : c'.Distinct := by
  obtain ⟨served, step, -, rfl⟩ := prepare_eq_ok prepared
  intro node r' found up
  rw [getElem?_modify] at found
  obtain ⟨r, before, rfl⟩ := Option.map_eq_some_iff.mp found
  split at up
  · next same =>
      rw [if_pos same]
      exact (distinct.thin (thins_serve step) node r before up).insert
  · next other =>
      rw [if_neg other]
      exact distinct.thin (thins_serve step) node r before up

theorem distinct_resume (distinct : c.Distinct) (w : Waiting) (s : Session) :
    (resumeStatement w c s).store.Distinct := by
  have known := resumes w c s
  generalize resumeStatement w c s = turn at known
  cases known with
  | reaching statement => exact distinct.thin (thins_execute c s statement)
  | refused => exact distinct
  | prepared prepared => exact distinct.prepare prepared
  | goesOn prepared puts => exact (distinct.prepare prepared).thin (thins_puts puts)
  | applying puts | tearing puts => exact distinct.thin (thins_puts puts)

namespace Traffic

theorem distinct_run (settings : Settings) (moves : List Move) : (run settings moves).cluster.Distinct := by
  have unowned : Owns (new settings) fun _ => False := owns_new settings
  have empty : (new settings).Distinct := fun node r found up => (unowned node r found up).1
  refine List.foldlRecOn (motive := fun t : Traffic => t.cluster.Distinct) moves Traffic.step empty ?_
  intro t distinct move _
  cases move with
  | connect node => exact distinct
  | fault fault => exact distinct.thin (thins_inject fault t.cluster)
  | issue i statement =>
      simp only [Traffic.step]
      split
      · exact distinct.thin (thins_start statement t.cluster _)
      · exact distinct
  | resume i =>
      simp only [Traffic.step]
      split
      · exact distinct_resume distinct _ _
      · exact distinct

end Traffic

/-! ## Writes one by one -/

theorem forget_forget (distinct : c.Distinct) (isOpen : c.isOpen id.node epoch = true) :
    (c.forget id).forget id = c.forget id := by
  obtain ⟨r, found, up, -⟩ := isOpen_eq_true.mp isOpen
  have gone : id ∉ r.prepared.erase id := (distinct id.node r found up).not_mem_erase
  unfold forget modify
  rw [List.modify_modify_eq]
  congr 1
  refine List.ext_getElem? fun other => ?_
  rw [List.getElem?_modify, List.getElem?_modify]
  split
  · next here =>
      rw [← here, found]
      simp [List.erase_of_not_mem gone]
  · rfl

theorem replicate_replicate (c : Cluster) (origin : Nat) (f g : Accounts → Accounts) :
    (c.replicate origin f).replicate origin g = c.replicate origin fun accounts => g (f accounts) := by
  have reached : (c.replicate origin f).reachable origin = c.reachable origin :=
    (alike_replicate c origin f).reachable origin
  rw [replicate, reached]
  unfold replicate
  congr 1
  refine List.ext_getElem? fun node => ?_
  rw [List.getElem?_mapIdx, List.getElem?_mapIdx, List.getElem?_mapIdx, Option.map_map]
  congr 1
  funext r
  cases (c.reachable origin).contains node <;> cases stale : r.stale <;> simp [stale]

theorem forget_replicate (c : Cluster) (origin : Nat) (f : Accounts → Accounts) (id : TransactionId) :
    (c.replicate origin f).forget id = (c.forget id).replicate origin f := by
  have reached : (c.forget id).reachable origin = c.reachable origin := (alike_forget c id).reachable origin
  rw [replicate, replicate, reached]
  unfold forget modify
  congr 1
  refine List.ext_getElem? fun other => ?_
  rw [List.getElem?_modify, List.getElem?_mapIdx, List.getElem?_mapIdx, List.getElem?_modify]
  cases c.replicas[other]? with
  | none => rfl
  | some r =>
      simp only [Option.map_eq_map, Option.map_some]
      split <;> split <;> rfl

/-! ## Commits by themselves -/

theorem Serving.commitPrepared_eq (serving : Serving c s) (home : id.node = s.node) (writes : List Write) :
    c.commitPrepared s.epoch id writes = ((c.forget id).replicate s.node (·.apply writes), .ok ()) := by
  obtain ⟨c', applied, -⟩ := serving.commitPrepared home writes
  rcases commitPrepared_cases c s.epoch id writes with ⟨-, eq⟩ | ⟨-, eq⟩ | ⟨-, -, -, eq⟩
  · cases applied.symm.trans eq
  · cases applied.symm.trans eq
  · rw [eq, home]

theorem Serving.settles_tearing (serving : Serving c s) (home : id.node = s.node)
    (once : (c.forget id).forget id = c.forget id) (write : Write) (rest : List Write) (reply : Reply) :
    Settles ((c.forget id).replicate s.node (·.apply (write :: rest))) s.endCommit (.ok reply) (rest.length + 1)
      (applyTorn c s id (write :: rest) reply) := by
  induction rest generalizing c write with
  | nil =>
      simp only [applyTorn, serving.commitPrepared_eq home]
      exact .answered 1
  | cons next rest ih =>
      obtain ⟨c', applied, serving'⟩ := serving.commitPrepared home [write]
      obtain rfl : (c.forget id).replicate s.node (·.apply [write]) = c' := by
        simpa [serving.commitPrepared_eq home] using applied
      have dropped : ((c.forget id).replicate s.node (·.apply [write])).forget id =
          (c.forget id).replicate s.node (·.apply [write]) := by
        rw [forget_replicate, once]
      have later := ih serving' (by rw [dropped, dropped]) next
      rw [dropped, replicate_replicate] at later
      simp only [applyTorn, applied]
      exact .waiting later

theorem Serving.settles_applying (serving : Serving c s) (home : id.node = s.node)
    (once : (c.forget id).forget id = c.forget id) (writes : List Write) (reply : Reply) :
    ∃ last, Settles last s.endCommit (.ok reply) writes.length (applyWrites c s id writes reply) ∧
      (c.settings.torn = false ∨ writes ≠ [] → last = (c.forget id).replicate s.node (·.apply writes)) := by
  cases torn : c.settings.torn with
  | false =>
      simp only [applyWrites, torn, serving.commitPrepared_eq home]
      exact ⟨_, .answered writes.length, fun _ => rfl⟩
  | true =>
      simp only [applyWrites, torn, ↓reduceIte]
      cases writes with
      | nil => exact ⟨c, .answered 0, by simp⟩
      | cons write rest => exact ⟨_, serving.settles_tearing home once write rest reply, fun _ => rfl⟩

theorem serving_prepare (prepared : c.prepare epoch id = .ok c') (unclosed : s.closed = false)
    (home : id.node = s.node) (sameEpoch : epoch = s.epoch) : Serving c' s := by
  obtain ⟨served, step, quorum, rfl⟩ := prepare_eq_ok prepared
  subst sameEpoch
  rw [home] at step quorum
  have serving : Serving served s := ⟨quorum, (serve_able step).1, isOpen_serve step, unclosed⟩
  exact serving.modify id.node (fun _ => rfl) (fun _ => rfl) fun _ fresh => fresh

theorem commit_alone (distinct : c.Distinct) (unclosed : s.closed = false) (inside : s.status = .inTransaction)
    (random : Nat) :
    let id : TransactionId := ⟨s.node, c.nextNumber, s.epoch⟩
    let emptied : Session := { s with writes := [] }
    (∃ e elapsed, c.takeNumber.2.prepare s.epoch id = .error e ∧
      runAlone random .commit c s = ⟨c.takeNumber.2, (emptied.fail e).endCommit, .error e, elapsed⟩) ∨
    ∃ prepared last elapsed, c.takeNumber.2.prepare s.epoch id = .ok prepared ∧
      runAlone random .commit c s = ⟨last, emptied.endCommit, .ok .done, elapsed⟩ ∧
      (c.settings.torn = false ∨ s.writes ≠ [] →
        last = (prepared.forget id).replicate s.node (·.apply s.writes)) := by
  intro id emptied
  have begins : startStatement .commit c s = beginCommit c emptied s.writes .done := by
    simp [startStatement, unclosed, inside, emptied]
  have waits : Turn.waits (startStatement .commit c s) = s.writes.length + 3 := by rw [begins]; rfl
  cases prepared : c.takeNumber.2.prepare s.epoch id with
  | error e =>
      have refused : resumeStatement (.preparing id s.writes .done) c.takeNumber.2 emptied =
          answered c.takeNumber.2 (emptied.fail e).endCommit (.error e) := by
        have step : c.takeNumber.2.prepare emptied.epoch id = .error e := prepared
        simp only [resumeStatement, step]
      have fails : Settles c.takeNumber.2 (emptied.fail e).endCommit (.error e) 1 (startStatement .commit c s) := by
        rw [begins]
        exact .waiting (refused ▸ .answered 0)
      obtain ⟨elapsed, done⟩ := fails.alone (by omega) random
      exact Or.inl ⟨e, elapsed, rfl, done⟩
  | ok c' =>
      have serving : Serving c' emptied := serving_prepare prepared unclosed rfl rfl
      have numbered : c.takeNumber.2.Distinct := distinct
      have once : (c'.forget id).forget id = c'.forget id := forget_forget (numbered.prepare prepared) serving.isOpen
      obtain ⟨last, settles, all⟩ := serving.settles_applying rfl once s.writes .done
      have applies : Settles last emptied.endCommit (.ok .done) (s.writes.length + 1)
          (resumeStatement (.preparing id s.writes .done) c.takeNumber.2 emptied) := by
        have step : c.takeNumber.2.prepare emptied.epoch id = .ok c' := prepared
        simp only [resumeStatement, step]
        split
        · exact .waiting settles
        · exact settles.mono (Nat.le_succ _)
      have succeeds :
          Settles last emptied.endCommit (.ok .done) (s.writes.length + 2) (startStatement .commit c s) := by
        rw [begins]
        exact .waiting applies
      obtain ⟨elapsed, done⟩ := succeeds.alone (by omega) random
      have kept : c'.settings.torn = c.settings.torn := congrArg Settings.torn (keeps_prepare prepared).settings
      exact Or.inr ⟨c', last, elapsed, rfl, done, kept ▸ all⟩

namespace Traffic

/-- Torn or not, a commit that nothing disturbs has the same answer and leaves the same session, and if it has
something to write it leaves the same cluster. -/
theorem torn_commit_undisturbed (settings : Settings) (moves : List Move) (unclosed : s.closed = false)
    (inside : s.status = .inTransaction) (random random' : Nat) :
    let c := (run settings moves).cluster
    let torn := runAlone random .commit (c.setTorn true) s
    let plain := runAlone random' .commit (c.setTorn false) s
    torn.answer = plain.answer ∧ torn.session = plain.session ∧
      (s.writes ≠ [] → torn.store.setTorn false = plain.store) := by
  intro c torn plain
  have distinct : c.Distinct := distinct_run settings moves
  have tornCase := commit_alone (c := c.setTorn true) distinct unclosed inside random
  have plainCase := commit_alone (c := c.setTorn false) distinct unclosed inside random'
  -- Both commits prepare their transaction with the same result.
  have step (flag : Bool) := prepare_setTorn c.takeNumber.2 flag s.epoch ⟨s.node, c.nextNumber, s.epoch⟩
  have tornStep := step true
  have plainStep := step false
  cases prepared : c.takeNumber.2.prepare s.epoch ⟨s.node, c.nextNumber, s.epoch⟩ with
  | error e =>
      rw [prepared] at tornStep plainStep
      obtain ⟨e₁, _, failed, tornRun⟩ | ⟨_, _, _, passed, -⟩ := tornCase
      · obtain ⟨e₂, _, failed', plainRun⟩ | ⟨_, _, _, passed, -⟩ := plainCase
        · cases tornStep.symm.trans failed
          cases plainStep.symm.trans failed'
          simp only [torn, plain, tornRun, plainRun]
          exact ⟨trivial, trivial, fun _ => rfl⟩
        · cases plainStep.symm.trans passed
      · cases tornStep.symm.trans passed
  | ok c' =>
      rw [prepared] at tornStep plainStep
      obtain ⟨_, _, failed, -⟩ | ⟨_, last, _, passed, tornRun, all⟩ := tornCase
      · cases tornStep.symm.trans failed
      · obtain ⟨_, _, failed, -⟩ | ⟨_, last', _, passed', plainRun, all'⟩ := plainCase
        · cases plainStep.symm.trans failed
        · cases tornStep.symm.trans passed
          cases plainStep.symm.trans passed'
          simp only [torn, plain, tornRun, plainRun]
          refine ⟨trivial, trivial, fun some => ?_⟩
          rw [all (Or.inr some), all' (Or.inl rfl)]
          rfl

def transferBegun : List Move :=
  [.connect 0, .issue 0 (.create 2), .resume 0, .fault (.isolate 2), .issue 0 .begin, .resume 0,
    .issue 0 (.add 1 (-5)), .resume 0, .issue 0 (.add 2 5), .resume 0]

theorem torn_transfer_undisturbed :
    let c := (run {} transferBegun).cluster
    let s : Session := { node := 0, epoch := 0, status := .inTransaction, writes := [⟨1, -5⟩, ⟨2, 5⟩] }
    let torn := runAlone 0 .commit (c.setTorn true) s
    let plain := runAlone 1 .commit (c.setTorn false) s
    (run {} transferBegun).lines = [⟨s, none⟩] ∧ torn.store.setTorn false = plain.store ∧
      torn.answer = .ok .done ∧ torn.store.replicas.map (·.stale) = [false, false, true] := by
  intro c s torn plain
  have agree := torn_commit_undisturbed {} transferBegun (s := s) rfl rfl 0 1
  exact ⟨by decide, agree.2.2 (by decide), by decide, by decide⟩

/-- A commit that writes nothing stays prepared if it is torn. -/
theorem torn_commit_of_nothing :
    let t := run {} [.connect 0, .issue 0 (.create 2), .resume 0, .issue 0 .begin, .resume 0]
    let s : Session := { node := 0, epoch := 0, status := .inTransaction }
    let torn := runAlone 0 .commit (t.cluster.setTorn true) s
    let plain := runAlone 0 .commit (t.cluster.setTorn false) s
    t.lines = [⟨s, none⟩] ∧ torn.answer = .ok .done ∧ plain.answer = .ok .done ∧
      torn.store.replicas.map (·.prepared) = [[⟨0, 1, 0⟩], [], []] ∧
      plain.store.replicas.map (·.prepared) = [[], [], []] := by
  decide

end Traffic

end LedgerDrill.Cluster
