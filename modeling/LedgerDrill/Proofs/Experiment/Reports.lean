import LedgerDrill.Proofs.Experiment.Hosting
import LedgerDrill.Proofs.Workload.Itineraries
import LedgerDrill.Scripted
import Mathlib.Logic.Relation

namespace LedgerDrill
open Outcome

section

variable {keys : List Key} {key : Key} {n n' : Nat} {rest : List (Option Key × Nat)} {f f' : Key → Nat}

theorem mem_entries (split : ((some key, n) :: rest).Perm (keys.map fun key => (some key, f key))) :
    key ∈ keys ∧ f key = n := by
  obtain ⟨key', member, same⟩ := List.mem_map.mp (split.mem_iff.mp List.mem_cons_self)
  obtain ⟨sameKey, known⟩ := Prod.mk.inj same
  cases Option.some.inj sameKey
  exact ⟨member, known⟩

theorem perm_entries (apart : keys.Nodup)
    (split : ((some key, n) :: rest).Perm (keys.map fun key => (some key, f key))) (own : f' key = n')
    (others : ∀ other, other ≠ key → f' other = f other) :
    ((some key, n') :: rest).Perm (keys.map fun key => (some key, f' key)) := by
  obtain ⟨member, known⟩ := mem_entries split
  have parted := List.perm_cons_erase member
  have left : rest.Perm ((keys.erase key).map fun other => (some other, f other)) := by
    have perm := split.trans (parted.map _)
    rw [List.map_cons, known] at perm
    exact perm.cons_inv
  have unchanged : ∀ other ∈ keys.erase key, (some other, f other) = (some other, f' other) := fun other inside =>
    congrArg (Prod.mk _) (others other (apart.mem_erase_iff.mp inside).1).symm
  rw [List.map_congr_left unchanged] at left
  have whole := parted.map fun other => (some other, f' other)
  rw [List.map_cons, own] at whole
  exact (left.cons _).trans whole.symm

end

namespace Outcome.Registry

variable {r : Registry} {key other : Key}

def recorded (taken : List Snapshot) (r : Registry) (key : Key) : Nat := overall (·.records key) taken r

theorem recorded_eq_zero (unknown : r.contains key = false) : r.recorded [] key = 0 := by
  have absent : r.get? key = none := by
    rw [← Option.not_isSome_iff_eq_none, Registry.get?, SortedMap.isSome_find?]
    exact Bool.not_eq_true _ ▸ unknown
  have summed := (Gauge.all key).overall_eq [] r
  have single : r.sum (Gauge.all key).chosen (Gauge.all key).value = ((r.get? key).map (·.outcomes.total)).getD 0 :=
    r.sum_single _
  rw [single, absent] at summed
  exact summed

theorem recorded_register (taken : List Snapshot) : (r.register other).recorded taken key = r.recorded taken key :=
  (Gauge.all key).overall_register taken r other

theorem recorded_start (taken : List Snapshot) (registered : r.contains other = true) (now : Instant) :
    (r.update other (·.start now)).recorded taken key = r.recorded taken key :=
  (Gauge.all key).overall_start taken registered now

theorem recorded_takeSnapshot (taken : List Snapshot) (now : Instant) :
    (r.takeSnapshot now).2.recorded (taken ++ [(r.takeSnapshot now).1]) key = r.recorded taken key :=
  (Gauge.all key).overall_takeSnapshot taken r now

theorem recorded_record (taken : List Snapshot) (key : Key) (registered : r.contains other = true)
    (started now : Instant) (ending : Option Workload.Ending) :
    (Workload.record r other started now ending).recorded taken key =
      r.recorded taken key + if other = key then ending.toList.length else 0 := by
  have gained : Workload.gained (Gauge.all key).toMeter other ending =
      if other = key then ending.toList.length else 0 := by
    cases ending <;> simp [Workload.gained, Gauge.all]
  rw [← gained]
  exact Workload.overall_record (Gauge.all key).toMeter taken registered started now ending

theorem perm_keys {keys : List Key} (apart : keys.Nodup) (registered : ∀ key, r.contains key = true ↔ key ∈ keys) :
    r.aggregates.keys.Perm keys := by
  have ascending : r.aggregates.keys.Nodup := by
    refine r.aggregates.pairwise_keys.imp fun less same => ?_
    rw [same, Std.compare_self] at less
    cases less
  refine (List.perm_ext_iff_of_nodup ascending apart).mpr fun key => ?_
  rw [SortedMap.mem_keys]
  exact registered key

/-! ## Calls to a responder -/

def Closes : Registry → Registry → Prop :=
  Relation.ReflTransGen fun r r' => ∃ now, r' = (r.takeSnapshot now).2

theorem closes_respond {c c' : Control.Channel} {r r' : Registry} {now : Instant}
    (answers : c.respond? r now = some (c', r')) : r.Closes r' := by
  have known : r' = r ∨ r' = (r.takeSnapshot now).2 := by
    unfold Control.Channel.respond? Control.Channel.receive at answers
    grind
  rcases known with rfl | ends
  · exact .refl
  · exact .single ⟨now, ends⟩

theorem closes_settle (c : Control.Channel) (r : Registry) (now : Instant) : r.Closes (c.settle r now).2 := by
  fun_induction Control.Channel.settle c r now with
  | case1 c r none => exact .refl
  | case2 c r next r' answers ih => exact (closes_respond answers).trans ih

theorem closes_sendFrame (c : Control.Channel) (frame : String) (r : Registry) (now : Instant) :
    r.Closes (c.sendFrame frame r now).2.1 := by
  unfold Control.Channel.sendFrame
  split
  · exact .refl
  · exact .refl
  · exact closes_settle _ r now

theorem closes_requestStatus (c : Control.Channel) (r : Registry) (now : Instant) :
    r.Closes (c.requestStatus r now).2.1 := by
  have sent := closes_sendFrame c (Control.Command.encode Control.Command.status.text) r now
  unfold Control.Channel.requestStatus
  split
  · next c' r' told =>
      rw [told] at sent
      split
      · exact sent
      · exact sent.trans (closes_settle _ r' now)
  · next told =>
      rw [told] at sent
      exact sent
  · next told =>
      rw [told] at sent
      exact sent

end Outcome.Registry

namespace Workload

/-! ## Steps of a loop -/

section

variable {σ κ π : Type}

def Point.recorded : Point κ π → Nat
  | .backingOff => 1
  | .connecting | .rollingBack .. | .working .. => 0

def LoopNext.recorded : LoopNext κ π → Nat
  | .done => 1
  | .waiting _ point => point.recorded

def Task.recorded : Task κ π → Nat
  | .running i _ completed => completed + i.point.recorded
  | .resting _ _ completed => completed
  | .statement .. | .iteration _ => 0

def Course.recorded : Course κ π → Nat
  | .landed landing => Worker.iterations landing
  | .waiting _ task => task.recorded

def Task.IsRun (key : Key) : Task κ π → Prop
  | .running i _ _ => i.loop.key = key
  | .resting loop _ _ => loop.key = key
  | .statement .. | .iteration _ => False

structure Scores (l : Loop κ) (before : Nat) (turn : LoopTurn σ κ π) : Prop where
  key : turn.loop.key = l.key
  outcomes : before + turn.ending.toList.length = turn.next.recorded

namespace Itinerary

def anyhow : Itinerary σ κ π where
  Dialled _ := True
  Ready _ _ := True
  Rolling _ := True
  Working _ _ _ := True
  Ended _ _ _ := True

theorem leads_anyhow [Store σ κ π] (l : Loop κ) : (anyhow : Itinerary σ κ π).Leads l where
  expired _ := trivial
  refused _ _ := trivial
  accepted _ _ := ⟨fun _ => trivial, fun _ => trivial⟩
  stuck _ _ := trivial
  rolledBack _ _ := trivial
  unplanned _ _ := trivial
  planned _ _ := trivial
  failed _ _ _ := trivial
  passed _ _ _ := trivial
  completed _ _ _ := trivial

end Itinerary

structure Adds (key : Key) (before : Nat) (r : Registry) (result : Shared σ × Course κ π) : Prop where
  runs : ∀ wait task, result.2 = .waiting wait task → task.IsRun key
  contains : ∀ other, result.1.registry.contains other = r.contains other
  own : ∀ taken, r.recorded taken key = before → result.1.registry.recorded taken key = result.2.recorded
  others : ∀ taken other, other ≠ key → result.1.registry.recorded taken other = r.recorded taken other

variable {l : Loop κ} {key : Key}

theorem adds_takeTurn {turn : LoopTurn σ κ π} {before : Nat} (scores : Scores l before turn) (own : l.key = key)
    (shared : Shared σ) (registered : shared.registry.contains key = true) (flag : Bool) (completed : Nat)
    (started now : Instant) :
    let (shared', loop, next) := shared.takeTurn started now turn
    Adds key (completed + before) shared.registry (shared', Course.ofRun flag completed started loop next) := by
  obtain ⟨store, loop, ending, next⟩ := turn
  have same : loop.key = key := scores.key.trans own
  have outcomes : before + ending.toList.length = next.recorded := scores.outcomes
  have registered' : shared.registry.contains loop.key = true := same ▸ registered
  refine ⟨fun wait task waits => ?_, fun other => contains_record _ _ other _ _ _, fun taken known => ?_,
    fun taken other apart => ?_⟩
  · cases next <;> cases waits <;> exact same
  · have next' : (Course.ofRun flag completed started loop next).recorded = completed + next.recorded := by
      cases next <;> rfl
    have recorded := Registry.recorded_record taken key registered' started now ending
    rw [if_pos same, known, Nat.add_assoc, outcomes] at recorded
    exact recorded.trans next'.symm
  · have recorded := Registry.recorded_record taken other registered' started now ending
    rwa [if_neg (same ▸ apart.symm)] at recorded

variable [Store σ κ π] {shared : Shared σ}

theorem scores_conclude (store : σ) (session : Option κ) (answer : Answer) :
    Scores l 0 (l.conclude store session answer) := by
  have key : Key.mk l.node (l.body.conclude answer).1.kind = l.key :=
    congrArg (Key.mk l.node) (kind_conclude l.body answer)
  unfold Loop.conclude
  cases concluded : l.body.conclude answer with
  | mk body ending =>
      rw [concluded] at key
      cases ending with
      | ok | error => exact ⟨key, rfl⟩

theorem scores_reaches {it : Itinerary σ κ π} {turn : LoopTurn σ κ π} (reaches : it.Reaches l turn) :
    Scores l 0 turn := by
  cases reaches with
  | ended => exact scores_conclude _ _ _
  | dialled | rolling | working => exact ⟨rfl, rfl⟩

theorem scores_start (random : Nat) (store : σ) : Scores l 0 (l.start random store) :=
  scores_reaches (Itinerary.reaches_start (Itinerary.leads_anyhow l) (fun _ _ => ⟨fun _ => trivial, fun _ => trivial⟩)
    (fun _ => trivial) random)

theorem scores_resume (point : Point κ π) (expired : Bool) (random : Nat) (store : σ) :
    Scores l point.recorded (l.resume point expired random store) := by
  cases point with
  | backingOff => exact ⟨rfl, rfl⟩
  | connecting | rollingBack | working =>
      refine scores_reaches (Itinerary.reaches_resume (Itinerary.leads_anyhow l) ?_ expired random)
      trivial

theorem adds_continueRun (own : l.key = key) (registered : shared.registry.contains key = true) (flag : Bool)
    (completed random : Nat) (now : Instant) :
    Adds key completed shared.registry (shared.continueRun (π := π) l flag completed random now) := by
  cases flag with
  | false => exact ⟨fun _ _ waits => (by cases waits), fun _ => rfl, fun _ known => known, fun _ _ _ => rfl⟩
  | true =>
      -- The beginning of an iteration is noted, but no outcome.
      have begun (taken : List Snapshot) (other : Key) :
          (shared.registry.update l.key (·.start now)).recorded taken other = shared.registry.recorded taken other :=
        Registry.recorded_start taken (own ▸ registered) now
      have adds := adds_takeTurn (scores_start random shared.store) own
        { shared with registry := shared.registry.update l.key (·.start now) }
        ((Registry.contains_update _).trans registered) true completed now now
      exact ⟨adds.runs, fun other => (adds.contains other).trans (Registry.contains_update _),
        fun taken known => adds.own taken ((begun taken key).trans known),
        fun taken other apart => (adds.others taken other apart).trans (begun taken other)⟩

theorem adds_resume {task : Task κ π} (isRun : task.IsRun key) (registered : shared.registry.contains key = true)
    (expired : Bool) (random : Nat) (now : Instant) :
    Adds key task.recorded shared.registry (shared.resume task expired random now) := by
  cases task with
  | statement | iteration => cases isRun
  | running i flag completed =>
      exact adds_takeTurn (scores_resume i.point expired random shared.store) isRun shared registered flag completed
        i.started now
  | resting loop flag completed => exact adds_continueRun isRun registered flag completed random now

end

end Workload

open Workload

/-! ## What waits and what has returned -/

namespace Timeline

variable {ι σ κ π : Type}

def tallies (t : Timeline ι σ κ π) : List (ι × Nat) :=
  t.flights.map (fun flight => (flight.1, flight.2.task.recorded)) ++
    t.landed.map fun landed => (landed.1, Worker.iterations landed.2)

theorem tallies_place (t : Timeline ι σ κ π) (name : ι) (course : Course κ π) :
    (t.place name course).tallies.Perm ((name, course.recorded) :: t.tallies) := by
  cases course with
  | landed landing =>
      simp only [tallies, place, List.map_append, List.map_cons, List.map_nil, ← List.append_assoc]
      exact List.perm_append_singleton _ _
  | waiting wait task =>
      obtain ⟨dice, wake, expired, -, placed⟩ := t.place_waiting name wait task
      rw [placed]
      simp only [tallies, List.map_append, List.map_cons, List.map_nil, List.append_assoc]
      exact List.perm_middle

theorem tallies_setFlag [DecidableEq ι] (t : Timeline ι σ κ π) (name : ι) (value : Bool) :
    (t.setFlag name value).tallies = t.tallies := by
  simp only [tallies, setFlag, List.map_map]
  congr 1
  refine List.map_congr_left fun flight _ => ?_
  obtain ⟨other, wake, expired, task⟩ := flight
  simp only [Function.comp_apply]
  split
  · cases task <;> rfl
  · rfl

end Timeline

/-! ## A worker and its loops -/

def Worker.keys (n : Nat) : List Key :=
  (List.range n).flatMap fun node => [⟨node, .transfer⟩, ⟨node, .sumTotal⟩]

namespace Worker

theorem length_keys (n : Nat) : (keys n).length = 2 * n := by
  simp only [keys, List.length_flatMap, List.length_cons, List.length_nil, List.map_const', List.length_range,
    List.sum_replicate_nat, Nat.mul_comm]

theorem nodup_keys (n : Nat) : (keys n).Nodup := by
  refine List.nodup_flatMap.mpr ⟨fun node _ => by simp, ?_⟩
  refine List.nodup_range.imp fun {node other} apart => ?_
  simp [Function.onFun, Ne.symm apart]

/-- What a worker reads off its place when it makes its report. -/
def count {σ κ π : Type} (p : Workplace σ κ π) : WorkerReport where
  loops := p.shared.registry.size
  iterations := (p.landed.map fun landed => iterations landed.2).sum
  aborted := p.flights.length

end Worker

/-- The place of a worker, with the snapshots that were taken there since the worker began. -/
structure Service (σ κ π : Type) where
  place : Workplace σ κ π
  snapshots : List Snapshot := []

namespace Service

variable {σ κ π : Type}

def recorded (s : Service σ κ π) (key : Key) : Nat := s.place.shared.registry.recorded s.snapshots key

def returned (s : Service σ κ π) (key : Key) : Bool := s.place.landed.any (·.1 = some key)

/-- What a report should say of the loops on so many nodes. -/
def account (s : Service σ κ π) (n : Nat) : WorkerReport where
  loops := 2 * n
  iterations := (((Worker.keys n).filter s.returned).map s.recorded).sum
  aborted := (Worker.keys n).countP (!s.returned ·)

/-- Every loop is there once: it waits, or it has returned. What it has counted is what was recorded. -/
structure Accounted (keys : List Key) (s : Service σ κ π) : Prop where
  apart : keys.Nodup
  registered : ∀ key, s.place.shared.registry.contains key = true ↔ key ∈ keys
  tallies : s.place.tallies.Perm (keys.map fun key => (some key, s.recorded key))
  runs : ∀ flight ∈ s.place.flights, ∃ key, flight.1 = some key ∧ flight.2.task.IsRun key

variable {keys : List Key} {s : Service σ κ π}

theorem Accounted.perm {keys' : List Key} (accounted : s.Accounted keys) (same : keys.Perm keys') :
    s.Accounted keys' where
  apart := same.nodup_iff.mp accounted.apart
  registered key := (accounted.registered key).trans same.mem_iff
  tallies := accounted.tallies.trans (same.map _)
  runs := accounted.runs

theorem Accounted.divided (accounted : s.Accounted keys) :
    (s.place.landed.map fun landed => (landed.1, Worker.iterations landed.2)).Perm
      ((keys.filter s.returned).map fun key => (some key, s.recorded key)) ∧
    (s.place.flights.map fun flight => (flight.1, flight.2.task.recorded)).Perm
      ((keys.filter (!s.returned ·)).map fun key => (some key, s.recorded key)) := by
  -- The keys are apart, so every name is on one side only, and the entries can be told by their names.
  let back (entry : Worker.Name × Nat) : Bool := s.place.landed.any (·.1 = entry.1)
  have names : (s.place.flights.map (·.1) ++ s.place.landed.map (·.1)).Nodup := by
    have perm := accounted.tallies.map (·.1)
    simp only [Timeline.tallies, List.map_append, List.map_map] at perm
    refine perm.nodup_iff.mpr (accounted.apart.map ?_)
    exact fun _ _ same => Option.some.inj same
  have landed : ∀ entry ∈ s.place.landed.map (fun landed => (landed.1, Worker.iterations landed.2)),
      back entry = true := by
    intro entry member
    obtain ⟨landed, inside, rfl⟩ := List.mem_map.mp member
    exact List.any_eq_true.mpr ⟨landed, inside, decide_eq_true rfl⟩
  have flying : ∀ entry ∈ s.place.flights.map (fun flight => (flight.1, flight.2.task.recorded)),
      back entry = false := by
    intro entry member
    obtain ⟨flight, inside, rfl⟩ := List.mem_map.mp member
    refine List.any_eq_false.mpr fun landed there same => ?_
    exact (List.nodup_append.mp names).2.2 flight.1 (List.mem_map_of_mem inside) landed.1 (List.mem_map_of_mem there)
      (of_decide_eq_true same).symm
  constructor
  · have back := accounted.tallies.filter back
    rw [Timeline.tallies, List.filter_append,
      List.filter_eq_nil_iff.mpr fun entry member => by simp [flying entry member],
      List.filter_eq_self.mpr landed, List.nil_append, List.filter_map] at back
    exact back
  · have away := accounted.tallies.filter (!back ·)
    rw [Timeline.tallies, List.filter_append,
      List.filter_eq_self.mpr fun entry member => by simp [flying entry member],
      List.filter_eq_nil_iff.mpr fun entry member => by simp [landed entry member], List.append_nil,
      List.filter_map] at away
    exact away

theorem Accounted.count_eq {n : Nat} (accounted : s.Accounted (Worker.keys n)) :
    Worker.count s.place = s.account n := by
  obtain ⟨landed, flying⟩ := accounted.divided
  have loops : s.place.shared.registry.size = 2 * n := by
    have keys := (Registry.perm_keys accounted.apart accounted.registered).length_eq
    rw [Worker.length_keys, SortedMap.keys, List.length_map] at keys
    exact keys
  have iterations : (s.place.landed.map fun landed => Worker.iterations landed.2).sum =
      (((Worker.keys n).filter s.returned).map s.recorded).sum := by
    have sums := (landed.map (·.2)).sum_nat
    rwa [List.map_map, List.map_map] at sums
  have aborted : s.place.flights.length = (Worker.keys n).countP (!s.returned ·) := by
    have lengths := flying.length_eq
    rwa [List.length_map, List.length_map, ← List.countP_eq_length_filter] at lengths
  simp only [Worker.count, account, loops, iterations, aborted]

/-! ### What every event keeps -/

theorem Accounted.congr (accounted : s.Accounted keys) {s' : Service σ κ π}
    (contains : ∀ key, s'.place.shared.registry.contains key = s.place.shared.registry.contains key)
    (recorded : ∀ key, s'.recorded key = s.recorded key) (tallies : s'.place.tallies = s.place.tallies)
    (runs : ∀ flight ∈ s'.place.flights, ∃ key, flight.1 = some key ∧ flight.2.task.IsRun key) :
    s'.Accounted keys where
  apart := accounted.apart
  registered key := by rw [contains, accounted.registered]
  tallies := by
    rw [tallies, funext fun key => congrArg (Prod.mk (some key)) (recorded key)]
    exact accounted.tallies
  runs := runs

variable [Store σ κ π]

theorem Accounted.wake (accounted : s.Accounted keys) {name : Worker.Name} {flight : Flight κ π}
    {others : List (Worker.Name × Flight κ π)} (found : s.place.flights.Perm ((name, flight) :: others))
    (expired : Bool) :
    Service.Accounted keys { s with place := s.place.wake name { flight with expired } others } := by
  obtain ⟨key, rfl, isRun⟩ := accounted.runs (name, flight) (found.mem_iff.mpr List.mem_cons_self)
  let rest : Workplace σ κ π := { s.place with flights := others }
  have split : ((some key, flight.task.recorded) :: rest.tallies).Perm
      (keys.map fun key => (some key, s.recorded key)) :=
    (((found.map _).append_right _).symm).trans accounted.tallies
  obtain ⟨member, known⟩ := mem_entries split
  -- Outcomes are recorded under the key of the loop, which no other loop has.
  have adds := adds_resume isRun ((accounted.registered key).mpr member) expired s.place.dice.roll.1 Timeline.stopwatch
  rw [Timeline.wake_eq]
  simp only
  generalize s.place.shared.resume flight.task expired s.place.dice.roll.1 Timeline.stopwatch = result at adds ⊢
  obtain ⟨shared, course⟩ := result
  refine ⟨accounted.apart, fun other => ?_, ?_, fun named inside => ?_⟩
  · rw [Timeline.shared_place]
    exact (Bool.eq_iff_iff.mp (adds.contains other)).trans (accounted.registered other)
  · simp only [recorded, Timeline.shared_place]
    refine (Timeline.tallies_place _ _ _).trans ?_
    exact perm_entries accounted.apart split (adds.own s.snapshots known) (adds.others s.snapshots)
  · rcases Timeline.mem_flights_place inside with before | ⟨same, wait, waits⟩
    · exact accounted.runs named (found.mem_iff.mpr (List.mem_cons_of_mem _ before))
    · exact ⟨key, same, adds.runs wait named.2.task waits⟩

/-- What may happen while a worker is there. Its loops take their steps in any order and at any time, others change
the store, the responder ends a window, and flags go up and down. -/
inductive Happens : Service σ κ π → Service σ κ π → Prop
  | wake {s : Service σ κ π} {name : Worker.Name} {flight : Flight κ π} {others : List (Worker.Name × Flight κ π)}
      (found : s.place.flights.Perm ((name, flight) :: others)) (expired : Bool) :
      Happens s { s with place := s.place.wake name { flight with expired } others }
  | reschedule (s : Service σ κ π) (now grain : Nat) (dice : Dice) :
      Happens s { s with place := { s.place with now, grain, dice } }
  | change (s : Service σ κ π) (f : σ → σ) :
      Happens s { s with place.shared.store := f s.place.shared.store }
  | collect (s : Service σ κ π) (now : Instant) :
      Happens s {
        place := { s.place with shared.registry := (s.place.shared.registry.takeSnapshot now).2 }
        snapshots := s.snapshots ++ [(s.place.shared.registry.takeSnapshot now).1] }
  | setFlag (s : Service σ κ π) (name : Worker.Name) (value : Bool) :
      Happens s { s with place := s.place.setFlag name value }

theorem Accounted.step (accounted : s.Accounted keys) {s' : Service σ κ π} (happens : s.Happens s') :
    s'.Accounted keys := by
  cases happens with
  | wake found expired => exact accounted.wake found expired
  | reschedule now grain dice => exact accounted.congr (fun _ => rfl) (fun _ => rfl) rfl accounted.runs
  | change f => exact accounted.congr (fun _ => rfl) (fun _ => rfl) rfl accounted.runs
  | collect now =>
      exact accounted.congr (fun _ => Registry.contains_clear)
        (fun _ => Registry.recorded_takeSnapshot s.snapshots now) rfl accounted.runs
  | setFlag name value =>
      refine accounted.congr (fun _ => rfl) (fun _ => rfl) (s.place.tallies_setFlag name value) fun named member => ?_
      obtain ⟨⟨other, flight⟩, before, rfl⟩ := List.mem_map.mp member
      obtain ⟨key, same, isRun⟩ := accounted.runs (other, flight) before
      refine ⟨key, ?_⟩
      simp only
      split
      · refine ⟨same, ?_⟩
        cases h : flight.task <;> simp only [h, Task.IsRun, Task.setFlag] at isRun ⊢ <;> exact isRun
      · exact ⟨same, isRun⟩

theorem Accounted.run (accounted : s.Accounted keys) {s' : Service σ κ π}
    (happened : Relation.ReflTransGen Happens s s') : s'.Accounted keys := by
  induction happened with
  | refl => exact accounted
  | tail _ happens ih => exact ih.step happens

theorem happened_closes {r' : Registry} (closes : s.place.shared.registry.Closes r') : ∃ taken,
    Relation.ReflTransGen Happens s { place := { s.place with shared.registry := r' }, snapshots := taken } := by
  induction closes with
  | refl => exact ⟨s.snapshots, .refl⟩
  | tail _ ends ih =>
      obtain ⟨now, rfl⟩ := ends
      obtain ⟨taken, happened⟩ := ih
      exact ⟨_, happened.tail (.collect _ now)⟩

theorem happened_requestStatus (w : Worker) (s : Service σ κ π) : ∃ taken,
    Relation.ReflTransGen Happens s { place := (w.requestStatus s.place).2.1, snapshots := taken } :=
  happened_closes (Registry.closes_requestStatus w.channel _ _)

theorem happened_sendFrame (w : Worker) (frame : String) (s : Service σ κ π) : ∃ taken,
    Relation.ReflTransGen Happens s { place := (w.sendFrame frame s.place).2.1, snapshots := taken } :=
  happened_closes (Registry.closes_sendFrame w.channel frame _ _)

/-! ### The beginning -/

theorem Accounted.launch {p : Workplace σ κ π} (accounted : Service.Accounted keys ⟨p, []⟩) {loop : Loop κ}
    (new : loop.key ∉ keys) (kept : Store.losesLoop p.shared.store loop.node = false) :
    Service.Accounted (loop.key :: keys) ⟨Worker.launch p loop, []⟩ := by
  let flight : Flight κ π := ⟨0, false, .resting loop true 0⟩
  let rested : Workplace σ κ π :=
    { p with shared := p.shared.register loop, flights := (some loop.key, flight) :: p.flights }
  have unknown : p.shared.registry.contains loop.key = false :=
    Bool.eq_false_iff.mpr fun known => new ((accounted.registered loop.key).mp known)
  have recorded (key : Key) : rested.shared.registry.recorded [] key = p.shared.registry.recorded [] key :=
    Registry.recorded_register []
  have lodged : Service.Accounted (loop.key :: keys) ⟨rested, []⟩ := by
    refine ⟨List.nodup_cons.mpr ⟨new, accounted.apart⟩, fun key => ?_, ?_, fun named member => ?_⟩
    · have known : (rested.shared.registry.contains key) = (loop.key == key || p.shared.registry.contains key) :=
        Registry.contains_register
      rw [known, Bool.or_eq_true, beq_iff_eq, accounted.registered key, List.mem_cons, eq_comm]
    · have first : Service.recorded (⟨rested, []⟩ : Service σ κ π) loop.key = 0 :=
        (recorded loop.key).trans (Registry.recorded_eq_zero unknown)
      have others : (fun key => (some key, Service.recorded (⟨rested, []⟩ : Service σ κ π) key)) =
          fun key => (some key, Service.recorded (⟨p, []⟩ : Service σ κ π) key) :=
        funext fun key => congrArg (Prod.mk (some key)) (recorded key)
      rw [List.map_cons, first, others]
      exact accounted.tallies.cons _
    · rcases List.mem_cons.mp member with rfl | before
      · exact ⟨loop.key, rfl, rfl⟩
      · exact accounted.runs named before
  -- A launched loop goes as one that was lodged at rest and woken at once.
  have woken := lodged.wake (.refl _) false
  have now : max rested.now flight.wake = p.now := Nat.max_zero p.now
  rw [Timeline.wake_eq, now] at woken
  have launched : Worker.launch p loop = (Timeline.launchRun
      { p with shared := p.shared.register loop } (some loop.key) loop true) := by
    have kept' : Store.losesLoop (p.shared.register loop).store loop.node = false := kept
    simp only [Worker.launch, kept', Bool.false_eq_true, if_false]
  rw [launched]
  exact woken

/-! ### The end -/

/-- The grace period is over: the flags are down, and every loop that was due has taken its steps. -/
def deadline (w : Worker) (s : Service σ κ π) : Service σ κ π :=
  let lowered := (s.place.flights.map (·.1)).foldl (fun p name => p.setFlag name false) s.place
  { s with place := lowered.advance (s.place.now + w.grace.nanos) }

theorem happened_lower (names : List Worker.Name) (s : Service σ κ π) :
    Relation.ReflTransGen Happens s { s with place := names.foldl (fun p name => p.setFlag name false) s.place } := by
  induction names generalizing s with
  | nil => exact .refl
  | cons name names ih => exact .head (.setFlag s name false) (ih { s with place := s.place.setFlag name false })

theorem happened_advance (p : Workplace σ κ π) (snapshots : List Snapshot) (limit : Nat) :
    Relation.ReflTransGen Happens ⟨p, snapshots⟩ ⟨p.advance limit, snapshots⟩ := by
  fun_induction Timeline.advance p limit with
  | case1 p none => exact .refl
  | case2 p name flight others found due ih =>
      exact .head (.wake (s := ⟨p, snapshots⟩) (Timeline.perm_earliest? found) flight.expired) ih
  | case3 p name flight others found early => exact .refl

theorem happened_deadline (w : Worker) (s : Service σ κ π) : Relation.ReflTransGen Happens s (s.deadline w) :=
  (happened_lower _ s).trans (happened_advance _ s.snapshots _)

end Service

namespace Worker
open Service

variable {σ κ π : Type} [Store σ κ π] {config : Config} {w : Worker} {p p' : Workplace σ κ π} {s : Service σ κ π}

/-- No loop is lost when the loops are launched one after the other. -/
def LaunchesAll : List (Loop κ) → Workplace σ κ π → Prop
  | [], _ => True
  | loop :: rest, p => Store.losesLoop p.shared.store loop.node = false ∧ LaunchesAll rest (launch p loop)

theorem accounted_launches {loops : List (Loop κ)} {keys : List Key} (accounted : Accounted keys ⟨p, []⟩)
    (all : LaunchesAll loops p) (new : (loops.map Loop.key ++ keys).Nodup) :
    Accounted (loops.map Loop.key ++ keys) ⟨loops.foldl launch p, []⟩ := by
  induction loops generalizing p keys with
  | nil => exact accounted
  | cons loop rest ih =>
      have later := List.perm_middle.nodup_iff.mpr new
      have fresh : loop.key ∉ keys := fun old => (List.nodup_cons.mp new).1 (List.mem_append_right _ old)
      exact (ih (accounted.launch fresh all.1) all.2 later).perm List.perm_middle

theorem map_key_loops (config : Config) (store : σ) :
    (loops σ config store).map Loop.key = keys (Store.size store) := by
  rw [loops, List.map_flatMap]
  rfl

theorem accounted_spawn (spawned : Worker.spawn config p = .ok (w, p'))
    (stays : Store.losesWorker p.shared.store = false)
    (all : LaunchesAll (loops σ config p.shared.store)
      { p with shared.registry := {}, flights := [], landed := [] }) :
    Accounted (keys (Store.size p.shared.store)) ⟨p', []⟩ := by
  have begun : p' = (loops σ config p.shared.store).foldl launch
      { p with shared.registry := {}, flights := [], landed := [] } := (spawn_ok spawned stays).2
  have emptied : Accounted [] (⟨{ p with shared.registry := {}, flights := [], landed := [] }, []⟩ : Service σ κ π) :=
    ⟨List.nodup_nil, fun _ => iff_of_false Bool.false_ne_true List.not_mem_nil, .nil,
      fun _ inside => absurd inside List.not_mem_nil⟩
  have launched := accounted_launches emptied all (by rw [map_key_loops, List.append_nil]; exact nodup_keys _)
  rw [map_key_loops, List.append_nil, ← begun] at launched
  exact launched

theorem stop_eq (running : w.isRunning = true) (s : Service σ κ π) :
    (Worker.stop w s.place).2.2 = .ok (count (s.deadline w).place) := by
  have now (names : List Name) : (names.foldl (fun p name => p.setFlag name false) s.place).now = s.place.now :=
    List.foldlRecOn (motive := fun p : Workplace σ κ π => p.now = s.place.now) names _ rfl fun _ same _ _ => same
  simp only [Worker.stop, finish, running, Bool.not_true, Bool.false_eq_true, if_false, now, ← List.sum_eq_foldl]
  rfl

/-- On any store and in any order of events. Whenever the loops of a worker are counted, and so when it is stopped,
the count tells of two loops on every node, of those that have not returned, and of the outcomes that the others have
recorded. -/
theorem reports_what_returned (spawned : Worker.spawn config p = .ok (w, p'))
    (stays : Store.losesWorker p.shared.store = false)
    (all : LaunchesAll (loops σ config p.shared.store) { p with shared.registry := {}, flights := [], landed := [] })
    (happened : Relation.ReflTransGen Happens ⟨p', []⟩ s) :
    let n := Store.size p.shared.store
    count s.place = s.account n ∧
    ∀ v : Worker, v.isRunning = true →
      (Worker.stop v s.place).2.2 = .ok ((s.deadline v).account n) ∧
      Relation.ReflTransGen Happens s (s.deadline v) ∧
      ∀ flight ∈ (s.deadline v).place.flights, s.place.now + v.grace.nanos < flight.2.wake := by
  have accounted := (accounted_spawn spawned stays all).run happened
  refine ⟨accounted.count_eq, fun v running => ⟨?_, happened_deadline v s, Timeline.lt_wake_advance _ _⟩⟩
  rw [stop_eq running, (accounted.run (happened_deadline v s)).count_eq]

theorem launchesAll_of_never (never : ∀ (store : σ) node, Store.losesLoop store node = false) (loops : List (Loop κ))
    (p : Workplace σ κ π) : LaunchesAll loops p := by
  induction loops generalizing p with
  | nil => trivial
  | cons loop rest ih => exact ⟨never _ _, ih (launch p loop)⟩

def slowSecond : Workplace Scripted Scripted.Session Statement :=
  { shared := { store := { nodes := 2, statementDelay := 100, slowNode := some 1 } } }

def hasty : Config := { stopGrace := .ofMillis 50 }

def hastyWorker : Worker := { channel := Control.Channel.serve {}, phase := .working, grace := hasty.stopGrace }

def observed : Service Scripted Scripted.Session Statement :=
  let first := ((loops Scripted hasty slowSecond.shared.store).foldl launch slowSecond).advance 2
  let (snapshot, registry) := first.shared.registry.takeSnapshot 0
  ⟨Timeline.advance { first with shared.registry := registry } 4, [snapshot]⟩

theorem report_of_slowSecond :
    (Worker.stop hastyWorker observed.place).2.2 = .ok ⟨4, 4, 2⟩ ∧
      (observed.deadline hastyWorker).account 2 = ⟨4, 4, 2⟩ := by
  have spawned : Worker.spawn hasty slowSecond =
      .ok (hastyWorker, (loops Scripted hasty slowSecond.shared.store).foldl launch slowSecond) := rfl
  have happened : Relation.ReflTransGen Happens
      ⟨(loops Scripted hasty slowSecond.shared.store).foldl launch slowSecond, []⟩ observed :=
    ((happened_advance _ [] 2).tail (.collect _ 0)).trans (happened_advance _ _ 4)
  have stopped : (Worker.stop hastyWorker observed.place).2.2 = .ok ⟨4, 4, 2⟩ := by decide +kernel
  obtain ⟨-, reports⟩ := reports_what_returned spawned rfl (launchesAll_of_never (fun _ _ => rfl) _ _) happened
  exact ⟨stopped, (Except.ok.inj (stopped.symm.trans (reports hastyWorker rfl).1)).symm⟩

end Worker

end LedgerDrill
