import LedgerDrill.Client
import LedgerDrill.Proofs.Retry
import LedgerDrill.Proofs.Timeline
import LedgerDrill.Scripted

namespace LedgerDrill
open Workload

/-! ## A meter for connections -/

/-- A store with a count of the connections that were begun. -/
structure Metered (σ : Type) where
  store : σ
  dials : Nat := 0
deriving DecidableEq

instance Metered.instStore {σ κ π : Type} [Store σ κ π] : Store (Metered σ) κ π where
  size m := Store.size m.store
  dial m node := (⟨(Store.dial m.store node).1, m.dials + 1⟩, (Store.dial m.store node).2)
  accept m node := ({ m with store := (Store.accept m.store node).1 }, (Store.accept m.store node).2)
  node := Store.node σ
  isClosed := Store.isClosed σ
  status := Store.status σ
  start statement m session :=
    let turn := Store.start statement m.store session
    ⟨{ m with store := turn.store }, turn.session, turn.next⟩
  resume point m session :=
    let turn := Store.resume point m.store session
    ⟨{ m with store := turn.store }, turn.session, turn.next⟩
  waits := Store.waits σ
  losesLoop m := Store.losesLoop m.store
  losesWorker m := Store.losesWorker m.store

namespace Config

variable {config : Config}

theorem fault?_eq_none (sound : config.validate = .ok ()) : config.fault? = none := by
  unfold validate at sound
  split at sound
  · cases sound
  · next none => exact none

theorem one_le_setupTries (sound : config.validate = .ok ()) : 1 ≤ config.setupTries := by
  have none := fault?_eq_none sound
  unfold fault? at none
  grind

end Config

namespace Timeline

variable {ι σ κ π : Type}

/-- No loop is under way, but statements may be. -/
def Unlooped (t : Timeline ι σ κ π) : Prop :=
  ∀ flight ∈ t.flights, ∃ session point, flight.2.task = .statement session point

theorem task_of_ofStatement {turn : Turn σ κ π} {wait : Wait} {task : Task κ π}
    (waits : Course.ofStatement turn = .waiting wait task) : ∃ session point, task = .statement session point := by
  unfold Course.ofStatement at waits
  split at waits
  · cases waits
  · cases waits
    exact ⟨_, _, rfl⟩

structure Counts (n : Nat) (t : Timeline ι (Metered σ) κ π) : Prop where
  unlooped : t.Unlooped
  dials : t.shared.store.dials = n

variable {t : Timeline ι (Metered σ) κ π} {n : Nat}

theorem Counts.place {turn : Turn (Metered σ) κ π} (counts : t.Counts n) (name : ι) :
    (t.place name (.ofStatement turn)).Counts n := by
  refine ⟨fun flight member => ?_, ?_⟩
  · rcases mem_flights_place member with before | ⟨-, wait, waits⟩
    · exact counts.unlooped flight before
    · exact task_of_ofStatement waits
  · rw [shared_place]
    exact counts.dials

variable [Store σ κ π]

theorem stable_counts (n : Nat) : Stable (Counts n : Timeline ι (Metered σ) κ π → Prop) where
  wake {t name flight others} found counts := by
    obtain ⟨session, point, task⟩ := counts.unlooped (name, flight) (found.mem_iff.mpr List.mem_cons_self)
    have rest : Unlooped { t with flights := others } := fun other member =>
      counts.unlooped other (found.mem_iff.mpr (List.mem_cons_of_mem _ member))
    dsimp only at task
    rw [wake_eq, task]
    refine Counts.place ?_ name
    exact ⟨rest, counts.dials⟩
  clock _ _ counts := ⟨counts.unlooped, counts.dials⟩

theorem Counts.connect (counts : t.Counts n) (node : Nat) : (t.connect node).1.Counts (n + 1) :=
  (stable_counts (n + 1)).connect ⟨counts.unlooped, congrArg (· + 1) counts.dials⟩
    fun counts => ⟨counts.unlooped, counts.dials⟩

theorem Counts.launchStatement (counts : t.Counts n) (name : ι) (statement : Statement) (session : κ) :
    (t.launchStatement name statement session).Counts n := by
  refine Counts.place ?_ name
  exact ⟨counts.unlooped, counts.dials⟩

theorem Counts.ask {p : Workplace (Metered σ) κ π} (counts : p.Counts n) (node : Nat) (statement : Statement) :
    (Client.ask p node statement).1.Counts (n + 1) :=
  (stable_counts (n + 1)).ask (counts.connect node)
    (fun session counts => counts.launchStatement none statement session) fun counts => ⟨counts.unlooped, counts.dials⟩

end Timeline

namespace Client
open Timeline

variable {σ κ π : Type} [Store σ κ π] {config : Config}

/-! ## Attempts -/

def setUpOnce (config : Config) (p : Workplace σ κ π) : Workplace σ κ π × Answer :=
  ask p 0 (.create config.accounts)

/-- The state before an attempt to set up, if there is a pause after each of the attempts before it. -/
def beforeAttempt (config : Config) (p : Workplace σ κ π) : Nat → Workplace σ κ π :=
  Retry.before (setUpOnce config) (pause config.setupDelay) p

def SetsUp (config : Config) (p : Workplace σ κ π) : Prop :=
  ∃ p₁ session, p.connect 0 = (p₁, .ok session) ∧ ∃ session' reply p₂,
    ((p₁.launchStatement none (.create config.accounts) session).await none).collect none =
      (some (.statement session' (.ok reply)), p₂)

theorem setsUp_iff {p : Workplace σ κ π} : SetsUp config p ↔ (setUpOnce config p).2.isOk := by
  unfold setUpOnce ask
  constructor
  · rintro ⟨p₁, session, connected, session', reply, p₂, made⟩
    simp only [connected, made]
    rfl
  · intro success
    split at success
    · cases success
    · next p₁ session connected =>
        split at success
        · next session' answer p₂ made =>
            cases answer with
            | error e => cases success
            | ok reply => exact ⟨p₁, session, connected, session', reply, p₂, made⟩
        · cases success

theorem new_eq {p : Workplace σ κ π} (sound : config.validate = .ok ()) : new config p =
    if Store.size p.shared.store = 0 then (p, .error (.config .noNodesExposed))
    else ((setUp config p).1, (setUp config p).2.map fun _ => { config, workplace := (setUp config p).1 }) := by
  unfold new
  simp only [Config.fault?_eq_none sound]

theorem setUp_eq (sound : config.validate = .ok ()) (p : Workplace σ κ π) : ∃ last,
    Retry.IsLast config.setupTries (fun i => (setUpOnce config (beforeAttempt config p i)).2) last ∧
      setUp config p = ((setUpOnce config (beforeAttempt config p last)).1,
        (setUpOnce config (beforeAttempt config p last)).2.mapError (.setupExhausted "initdb" config.setupTries)) :=
  Retry.keepTrying_eq (Config.one_le_setupTries sound) "initdb" (setUpOnce config) (pause config.setupDelay) p

theorem counts_beforeAttempt {p : Workplace (Metered σ) κ π} {n : Nat} (counts : p.Counts n) (i : Nat) :
    (beforeAttempt config p i).Counts (n + i) :=
  Retry.before_induction counts (fun n _ counts => (stable_counts (n + 1)).pause (counts.ask 0 _) _) i

theorem dials_new_le (sound : config.validate = .ok ()) {p : Workplace (Metered σ) κ π} (unlooped : p.Unlooped) :
    (new config p).1.shared.store.dials ≤ p.shared.store.dials + config.setupTries := by
  rw [new_eq sound]
  split
  · exact Nat.le_add_right _ _
  · obtain ⟨last, ends, made⟩ := setUp_eq sound p
    have before : (beforeAttempt config p last).Counts (p.shared.store.dials + last) :=
      counts_beforeAttempt ⟨unlooped, rfl⟩ last
    have counts := before.ask 0 (.create config.accounts)
    have short := ends.lt
    rw [made]
    exact counts.dials.le.trans (by omega)

/-- A retry calls its operation until this succeeds once, and no more often than it is told to. It pauses between two
calls and at no other time. It gives the success, or else the error of its last call; without a single try it is
refused. A client with a sound configuration makes at most as many attempts as this says, whoever else is at work, and
connects at most as often, as a meter shows where nobody else connects. If there are nodes at all, it is made exactly if
one of the attempts that it may make opens a session and makes the accounts on it. -/
theorem tries_are_bounded :
    (∀ (α : Type) (name : String) (delay : Duration) (results : Nat → Except StoreError α),
      Retry.keepTrying 0 name (Retry.call results) (Retry.sleep delay) [] = ([], .error (.config (.noTries name))) ∧
      ∀ tries : Nat, 1 ≤ tries → ∃ count : Nat, (count : ℕ∞) = min (tries : ℕ∞) (Retry.firstSuccess results) ∧
        ∃ result, Retry.keepTrying tries name (Retry.call results) (Retry.sleep delay) [] =
            ((List.replicate count .call).intersperse (.sleep delay), result) ∧
          (Retry.firstSuccess results ≤ tries → ∃ value, results (count - 1) = .ok value ∧ result = .ok value) ∧
          (tries < Retry.firstSuccess results →
            ∃ e, results (count - 1) = .error e ∧ result = .error (.setupExhausted name tries e))) ∧
    ∀ (σ κ π : Type) [Store σ κ π] (config : Config), config.validate = .ok () →
      (∀ p : Workplace (Metered σ) κ π, p.Unlooped →
        (new config p).1.shared.store.dials ≤ p.shared.store.dials + config.setupTries) ∧
      ∀ p : Workplace σ κ π,
        (Store.size p.shared.store = 0 → new config p = (p, .error (.config .noNodesExposed))) ∧
        (Store.size p.shared.store ≠ 0 →
          (∃ last < config.setupTries, (∀ i < last, ¬ SetsUp config (beforeAttempt config p i)) ∧
            (new config p).1 = (setUpOnce config (beforeAttempt config p last)).1) ∧
          ((∃ c, (new config p).2 = .ok c) ↔ ∃ i < config.setupTries, SetsUp config (beforeAttempt config p i))) := by
  refine ⟨fun α name delay results => ⟨rfl, fun tries some => ?_⟩, fun σ κ π _ config sound =>
    ⟨fun p unlooped => dials_new_le sound unlooped, fun p => ⟨fun none => ?_, fun nodes => ?_⟩⟩⟩
  · obtain ⟨last, ends, tried⟩ := Retry.keepTrying_call some name delay results
    refine ⟨last + 1, ends, _, tried, fun within => ?_, fun beyond => ?_⟩
    · obtain ⟨value, told⟩ := ends.ok within
      exact ⟨value, told, by rw [told]; rfl⟩
    · obtain ⟨e, told⟩ := ends.error beyond
      exact ⟨e, told, by rw [told]; rfl⟩
  · rw [new_eq sound, if_pos none]
  · obtain ⟨last, ends, made⟩ := setUp_eq sound p
    rw [new_eq sound, if_neg nodes, made]
    refine ⟨⟨last, ends.lt, fun i earlier => ?_, rfl⟩, ?_⟩
    · rw [setsUp_iff, ends.failed i earlier]
      exact Bool.false_ne_true
    · simp only [setsUp_iff]
      refine Iff.trans ?_ (ends.isOk_iff.trans Retry.firstSuccess_le_iff)
      cases (setUpOnce config (beforeAttempt config p last)).2 with
      | error e => exact iff_of_false (by rintro ⟨c, ⟨⟩⟩) Bool.false_ne_true
      | ok reply => exact iff_of_true ⟨_, rfl⟩ rfl

structure Refuses (count : Nat) (p : Workplace (Metered Scripted) Scripted.Session Statement) : Prop where
  store : ∃ connects dials, p.shared.store = ⟨{ nodes := 1, failingConnects := count, connects }, dials⟩
  flights : p.flights = []
  landed : p.landed = []

section

variable {p : Workplace (Metered Scripted) Scripted.Session Statement} {count : Nat}

theorem Refuses.fails (refuses : Refuses (count + 1) p) : ¬ SetsUp config p ∧ Refuses count (setUpOnce config p).1 := by
  obtain ⟨⟨store, registry⟩, now, grain, dice, flights, landed⟩ := p
  obtain ⟨⟨connects, dials, same⟩, noFlights, noLandings⟩ := refuses
  cases same
  cases noFlights
  cases noLandings
  refine ⟨fun setsUp => ?_, ⟨connects + 1, dials + 1, rfl⟩, rfl, rfl⟩
  cases setsUp_iff.mp setsUp

theorem Refuses.setsUp (refuses : Refuses 0 p) : SetsUp config p := by
  obtain ⟨⟨store, registry⟩, now, grain, dice, flights, landed⟩ := p
  obtain ⟨⟨connects, dials, same⟩, noFlights, noLandings⟩ := refuses
  cases same
  cases noFlights
  cases noLandings
  exact setsUp_iff.mpr rfl

theorem Refuses.pause (refuses : Refuses count p) (length : Duration) : Refuses count (Client.pause length p) := by
  obtain ⟨shared, flights, landed⟩ := pause_of_no_flights refuses.flights (.pause length)
  obtain ⟨connects, dials, same⟩ := refuses.store
  exact ⟨⟨connects, dials, (congrArg Shared.store shared).trans same⟩, flights, landed.trans refuses.landed⟩

theorem Refuses.before {i : Nat} (refuses : Refuses (count + i) p) : Refuses count (beforeAttempt config p i) := by
  induction i generalizing p with
  | zero => exact refuses
  | succ i ih => exact ih (refuses.fails.2.pause _)

end

def thirdTime (i : Nat) : Except StoreError Nat := if i < 2 then .error .connectionClosed else .ok 42

def refusing : Workplace (Metered Scripted) Scripted.Session Statement :=
  { shared := { store := { store := { nodes := 1, failingConnects := 3 } } } }

theorem tries_of_refusing :
    (1 ≤ 5 ∧ Retry.firstSuccess thirdTime = 3 ∧
      Retry.keepTrying 5 "op" (Retry.call thirdTime) (Retry.sleep (.ofMillis 1)) [] =
        ((List.replicate 3 .call).intersperse (.sleep (.ofMillis 1)), .ok 42)) ∧
    ({ setupTries := 4 } : Config).validate = .ok () ∧ ({ setupTries := 3 } : Config).validate = .ok () ∧
    refusing.Unlooped ∧ Store.size refusing.shared.store ≠ 0 ∧
    (new { setupTries := 4 } refusing).1.shared.store.dials ≤ 4 ∧
    (∃ c, (new { setupTries := 4 } refusing).2 = .ok c) ∧ ¬ ∃ c, (new { setupTries := 3 } refusing).2 = .ok c := by
  obtain ⟨retries, clients⟩ := tries_are_bounded
  have tried : Retry.keepTrying 5 "op" (Retry.call thirdTime) (Retry.sleep (.ofMillis 1)) [] =
      ((List.replicate 3 .call).intersperse (.sleep (.ofMillis 1)), .ok 42) := rfl
  have third : Retry.firstSuccess thirdTime = 3 := by
    obtain ⟨count, position, result, same, -⟩ := (retries Nat "op" (.ofMillis 1) thirdTime).2 5 (by decide)
    rw [tried] at same
    have counted : count = 3 := by
      have lengths := congrArg (fun run => run.1.length) same
      simp only [List.length_intersperse, List.length_replicate] at lengths
      omega
    rw [counted] at position
    rcases min_choice ((5 : Nat) : ℕ∞) (Retry.firstSuccess thirdTime) with all | first
    · cases Nat.cast_injective (position.trans all)
    · exact (position.trans first).symm
  have refuses : Refuses 3 refusing := ⟨⟨0, 0, rfl⟩, rfl, rfl⟩
  have unlooped : refusing.Unlooped := fun flight member => absurd member List.not_mem_nil
  have meter := (clients Scripted Scripted.Session Statement { setupTries := 4 } rfl).1 refusing unlooped
  have four := (clients (Metered Scripted) Scripted.Session Statement { setupTries := 4 } rfl).2 refusing
  have three := (clients (Metered Scripted) Scripted.Session Statement { setupTries := 3 } rfl).2 refusing
  refine ⟨⟨by decide, third, tried⟩, rfl, rfl, unlooped, by decide, meter, ?_, ?_⟩
  · exact (four.2 (by decide)).2.mpr ⟨3, by decide, (refuses.before (i := 3)).setsUp⟩
  · rw [(three.2 (by decide)).2]
    rintro ⟨i, early, setsUp⟩
    obtain ⟨left, rest⟩ : ∃ left, 3 = left + 1 + i := ⟨2 - i, by dsimp only at early; omega⟩
    have refusesOn : Refuses (left + 1 + i) refusing := rest ▸ refuses
    exact refusesOn.before.fails.1 setsUp

end Client

end LedgerDrill
