import LedgerDrill.Proofs.Experiment.Usage

namespace LedgerDrill
open Cluster (Session Waiting)

namespace Cluster

structure Healthy (changes : List Change) (c : Cluster) : Prop where
  connected : c.Connected
  alive : c.Alive
  faithful : Ledger.Faithful ⟨c, changes⟩
  owns : Owns c fun _ => False

variable {changes : List Change} {c : Cluster} {node : Nat}

theorem Healthy.digest (healthy : c.Healthy changes) (bound : node < c.size) : ∃ s c',
    (Store.accept c node).2 = .ok s ∧
      execute c s .digest = answered c' s (.ok (.digest (tableOf changes).digest)) ∧
        c'.Healthy changes ∧ c'.size = c.size := by
  obtain ⟨s, accepted, -, -, online⟩ := healthy.connected.accept healthy.alive bound
  obtain ⟨c', served, -⟩ := online.serve
  have alike := alike_serve served
  refine ⟨s, c', accepted, execute_digest served healthy.faithful, ?_, alike.size⟩
  exact
    { connected := healthy.connected.alike alike
      alive := alive_of_fresh (serve_able served).1
      faithful := healthy.faithful.keep (keeps_serve served)
      owns := healthy.owns.thin (thins_serve served) }

theorem preparedOn_eq_zero (owns : Owns c fun _ => False) {epoch : Nat} (isOpen : c.isOpen node epoch = true) :
    c.preparedOn node epoch = .ok 0 := by
  obtain ⟨r, found, up, -⟩ := isOpen_eq_true.mp isOpen
  have none : r.prepared = [] := List.eq_nil_iff_forall_not_mem.mpr fun id member =>
    ((owns node r found up).2 id member).2.2
  simp [preparedOn, isOpen, found, none]

theorem Healthy.prepared (healthy : c.Healthy changes) (bound : node < c.size) : ∃ s c',
    (Store.accept c node).2 = .ok s ∧ execute c s .prepared = answered c' s (.ok (.prepared 0)) ∧
      c'.Healthy changes ∧ c'.size = c.size := by
  obtain ⟨s, accepted, -, -, online⟩ := healthy.connected.accept healthy.alive bound
  refine ⟨s, c, accepted, ?_, healthy, rfl⟩
  simp only [execute, preparedOn_eq_zero healthy.owns online.isOpen]

end Cluster

/-! ## Teardowns step by step -/

namespace Suite

variable {τ : Type} {controls : Controls τ} {timings : Timings} {w w₁ w₂ w₃ : τ} {report : WorkerReport} {count : Nat}

theorem teardown_ok (stopped : controls.stop w = (.ok report, w₁))
    (compared : controls.isIdentical (controls.rest timings.stopDelay w₁) = (.ok true, w₂))
    (counted : controls.prepared w₂ = (.ok 0, w₃)) : teardown controls timings w = (.ok (.ok ()), w₃) := by
  have paused : controls.pause timings.stopDelay w₁ = (.ok (), controls.rest timings.stopDelay w₁) := rfl
  unfold teardown
  simp only [Action.bind_eq, stopped, paused, compared, Bool.not_true, Bool.false_eq_true, if_false, counted,
    bne_self_eq_false]
  rfl

theorem teardown_preparedLeft (reported : (teardown controls timings w).1 = .ok (.error (.preparedLeft count))) :
    ∃ report w₁ w₂ w₃, controls.stop w = (.ok report, w₁) ∧
      controls.isIdentical (controls.rest timings.stopDelay w₁) = (.ok true, w₂) ∧
        controls.prepared w₂ = (.ok count, w₃) ∧ count ≠ 0 := by
  obtain ⟨report, w₁, stopped, later⟩ := Action.bind_ok (Prod.ext reported rfl)
  obtain ⟨_, _, paused, later⟩ := Action.bind_ok later
  cases paused
  obtain ⟨identical, w₂, compared, later⟩ := Action.bind_ok later
  cases identical with
  | false => cases later
  | true =>
      obtain ⟨counted, w₃, told, later⟩ := Action.bind_ok later
      refine ⟨report, w₁, w₂, w₃, stopped, compared, ?_⟩
      by_cases zero : counted = 0
      · rw [zero] at later
        cases later
      · have left : (counted != 0) = true := bne_iff_ne.mpr zero
        simp only [left, if_true] at later
        cases later
        exact ⟨told, zero⟩

end Suite

/-! ## Clients -/

namespace Client
open Cluster

variable {changes : List Change} {c c₀ : Client Cluster Session Waiting} {settings : Cluster.Settings}

theorem verdict_of_healthy (quiet : c.workplace.Quiet) (healthy : c.store.Healthy changes) :
    ∃ c', Client.isDataIdentical c = (.ok true, c') ∧ c'.workplace.Quiet ∧ c'.store.Healthy changes := by
  have bounds : ∀ node ∈ List.range c.nodeCount, node < c.store.size := fun node => List.mem_range.mp
  obtain ⟨c', asked, quiet', healthy', -⟩ := askAll_ok (P := Healthy changes) rfl
    (fun _ _ healthy bound => healthy.digest bound) "digest" _ quiet healthy bounds
  refine ⟨c', ?_, quiet', healthy'⟩
  obtain ⟨node, fresh⟩ := alive_iff.mp healthy.alive
  obtain ⟨others, several⟩ : ∃ others, c.nodeCount = others + 1 :=
    Nat.exists_eq_succ_of_ne_zero (Nat.ne_zero_of_lt (lt_size fresh))
  rw [List.length_range, several, List.replicate_succ] at asked
  rw [isDataIdentical_eq, several, asked]
  simp

theorem count_of_healthy (quiet : c.workplace.Quiet) (healthy : c.store.Healthy changes) :
    ∃ c', Client.prepared c = (.ok 0, c') := by
  have bounds : ∀ node ∈ List.range c.nodeCount, node < c.store.size := fun node => List.mem_range.mp
  obtain ⟨c', asked, -⟩ := askAll_ok (P := Healthy changes) rfl
    (fun _ _ healthy bound => healthy.prepared bound) "prepared transactions" _ quiet healthy bounds
  refine ⟨c', ?_⟩
  have zero : ((List.replicate (List.range c.nodeCount).length (.prepared 0)).map Reply.count).sum = 0 := by
    rw [List.map_replicate, List.sum_replicate_nat, Reply.count, Nat.mul_zero]
  rw [prepared_eq, asked]
  simp only [zero]

theorem teardown_of_healthy {stop : Action (Client Cluster Session Waiting) WorkerReport} {report : WorkerReport}
    (stopped : stop c₀ = (.ok report, c)) (quiet : c.workplace.Quiet) (healthy : c.store.Healthy changes)
    (timings : Timings) :
    (Suite.teardown { controls with stop } timings c₀).1 = .ok (.ok ()) := by
  let rested := controls.rest timings.stopDelay c
  obtain ⟨quiet', shared⟩ := quiet.pause (.pause timings.stopDelay)
  have healthy' : rested.store.Healthy changes := by
    rw [show rested.store = c.store from congrArg Workload.Shared.store shared]
    exact healthy
  obtain ⟨c₂, identical, quiet₂, healthy₂⟩ := verdict_of_healthy (c := rested) quiet' healthy'
  obtain ⟨c₃, count⟩ := count_of_healthy quiet₂ healthy₂
  exact congrArg Prod.fst (Suite.teardown_ok stopped identical count)

theorem Used.healthy (used : Used settings c) (quiet : c.workplace.Quiet) (connected : c.store.Connected)
    (alive : c.store.Alive) : ∃ changes, c.store.Healthy changes := by
  have lodges := used.lodged.lodges
  obtain ⟨changes, faithful⟩ := lodges.faithful
  refine ⟨changes, connected, alive, faithful, lodges.owns.imp ?_⟩
  rintro id ⟨flight, flown, -⟩
  rw [quiet.flights] at flown
  cases flown

/-- Whatever a client has done and suffered. If its workload ends without aborting a loop when all nodes are up
and linked and some replica is fresh, then all nodes tell the same data and nothing prepared, and the teardown
passes; so it does also when faults and steps come in between while the workload ends. -/
theorem teardown_passes (settings : Cluster.Settings) (c : Client Cluster Session Waiting) (used : Used settings c)
    (timings : Timings) :
    (∀ report c', Client.stop c = (.ok report, c') → report.aborted = 0 → c'.store.Connected → c'.store.Alive →
      (Client.isDataIdentical c').1 = .ok true ∧ (Client.prepared c').1 = .ok 0 ∧
        (Suite.teardown controls timings c).1 = .ok (.ok ())) ∧
    (c.workplace.Quiet → c.store.Connected → c.store.Alive →
      (Client.isDataIdentical c).1 = .ok true ∧ (Client.prepared c).1 = .ok 0 ∧
        ∀ stop c₀ report, stop c₀ = (.ok report, c) →
          (Suite.teardown { controls with stop } timings c₀).1 = .ok (.ok ())) := by
  have verdicts {c : Client Cluster Session Waiting} (used : Used settings c) (quiet : c.workplace.Quiet)
      (connected : c.store.Connected) (alive : c.store.Alive) :
      (Client.isDataIdentical c).1 = .ok true ∧ (Client.prepared c).1 = .ok 0 ∧
        ∀ stop c₀ report, stop c₀ = (.ok report, c) →
          (Suite.teardown { controls with stop } timings c₀).1 = .ok (.ok ()) := by
    obtain ⟨changes, healthy⟩ := used.healthy quiet connected alive
    obtain ⟨_, identical, -⟩ := verdict_of_healthy quiet healthy
    obtain ⟨_, count⟩ := count_of_healthy quiet healthy
    exact ⟨congrArg Prod.fst identical, congrArg Prod.fst count,
      fun _ _ _ stopped => teardown_of_healthy stopped quiet healthy timings⟩
  refine ⟨fun report c' stopped gentle connected alive => ?_, verdicts used⟩
  obtain ⟨-, quiet⟩ := used.lodged.stop stopped gentle
  obtain ⟨identical, count, passes⟩ := verdicts (used.stop stopped gentle) quiet connected alive
  exact ⟨identical, count, passes Client.stop c report stopped⟩

def wakeSome : Nat → Client Cluster Session Waiting → Client Cluster Session Waiting
  | 0, c => c
  | n + 1, c =>
    match c.workplace.flights with
    | [] => c
    | (name, flight) :: others => wakeSome n { c with workplace := c.workplace.wake name flight others }

theorem Used.wakeSome (used : Used settings c) (n : Nat) : Used settings (Client.wakeSome n c) := by
  induction n generalizing c with
  | zero => exact used
  | succ n ih =>
      unfold Client.wakeSome
      split
      · exact used
      · next name flight others found => exact ih (used.wake (found ▸ .refl _) flight.expired)

def seeded : Client Cluster Session Waiting :=
  { config := { accounts := 4 }
    workplace.shared.store :=
      (Cluster.execute (.new { torn := true }) { node := 0, epoch := 0 } (.create 4)).store }

def crashed : Client Cluster Session Waiting :=
  wakeSome 12 (FaultTarget.inject (.crash 1) (wakeSome 30 (Client.launch seeded).2)).1

def lowered : Client Cluster Session Waiting :=
  let started := (FaultTarget.inject (.start 1) crashed).1
  { started with workplace :=
      (started.workplace.flights.map (·.1)).foldl (fun p name => p.setFlag name false) started.workplace }

def ended : Client Cluster Session Waiting := wakeSome 48 lowered

theorem used_ended : Used { torn := true } ended := by
  have seeded : Used { torn := true } seeded :=
    (Used.start { accounts := 4 } (p := { shared := { store := .new { torn := true } } }) rfl ⟨rfl, rfl⟩).tell _ _
  exact (((((seeded.launch.wakeSome 30).fault (.crash 1)).wakeSome 12).fault (.start 1)).lower).wakeSome 48

theorem teardown_of_ended :
    lowered.store.replicas.map (·.stale) = [false, true, false] ∧
    (Client.stop ended).1 = .ok ⟨6, 14, 0⟩ ∧
    (Client.isDataIdentical (Client.stop ended).2).1 = .ok true ∧ (Client.prepared (Client.stop ended).2).1 = .ok 0 ∧
      (Suite.teardown controls {} ended).1 = .ok (.ok ()) := by
  have stopped : (Client.stop ended).1 = .ok ⟨6, 14, 0⟩ := by decide +kernel
  have connected : (Client.stop ended).2.store.Connected := ⟨by decide +kernel, by decide +kernel⟩
  have alive : (Client.stop ended).2.store.Alive := by
    unfold Cluster.Alive
    decide +kernel
  refine ⟨by decide +kernel, stopped, ?_⟩
  exact (teardown_passes _ ended used_ended {}).1 _ _ (Prod.ext stopped rfl) rfl connected alive

end Client

end LedgerDrill
