import LedgerDrill.Workload.Task

/-!
Tasks on a clock that stands still while a task makes a step, and then jumps to the next one. The
clock counts nanoseconds. Latencies are measured on the steps alone, so they are zero here.
-/

namespace LedgerDrill
open Workload

structure Dice where
  seed : Nat := 0
deriving DecidableEq, Repr

def Dice.roll (d : Dice) : Nat × Dice :=
  let seed := (d.seed + 1) * 48271 % 2147483647
  (seed, ⟨seed⟩)

/-- The length of a wait in nanoseconds, and whether it is a connection that expires. A connection
that is made at its time limit is in time. -/
def Workload.Wait.draw (wait : Wait) (random : Nat) : Nat × Bool :=
  match wait with
  | .roundTrip latency => (latency.sample random, false)
  | .pause length => (length.nanos, false)
  | .connection latency limit =>
    if latency.sample random ≤ limit.nanos then (latency.sample random, false)
    else (limit.nanos, true)

structure Flight (κ π : Type) where
  wake : Nat
  expired : Bool := false
  task : Task κ π

/-- The tasks that wait and what others have left, each under its name `ι`. Every wait takes a little
longer than it should, by at most the `grain` of the clock, so that two tasks do not keep step for
ever. -/
structure Timeline (ι σ κ π : Type) where
  shared : Shared σ
  now : Nat := 0
  grain : Nat := 1
  dice : Dice := {}
  flights : List (ι × Flight κ π) := []
  landed : List (ι × Landing κ) := []

namespace Timeline

def stopwatch : Outcome.Instant := 0

section
variable {ι σ κ π : Type}

/-- Takes out the flight that wakes first, of equal ones the first in the list. -/
def earliest? : List (ι × Flight κ π) → Option ((ι × Flight κ π) × List (ι × Flight κ π))
  | [] => none
  | flight :: rest =>
    match earliest? rest with
    | none => some (flight, [])
    | some (other, others) =>
      if other.2.wake < flight.2.wake then some (other, flight :: others) else some (flight, rest)

/-- How long the flights may go on up to an instant, that instant included. -/
def remaining (limit : Nat) : List (ι × Flight κ π) → Nat
  | [] => 0
  | flight :: rest => limit + 1 - flight.2.wake + remaining limit rest

theorem remaining_append (limit : Nat) (flights more : List (ι × Flight κ π)) :
    remaining limit (flights ++ more) = remaining limit flights + remaining limit more := by
  induction flights with
  | nil => exact (Nat.zero_add _).symm
  | cons flight rest ih => rw [List.cons_append, remaining, remaining, ih, Nat.add_assoc]

theorem remaining_earliest? {flights : List (ι × Flight κ π)} {first rest}
    (h : earliest? flights = some (first, rest)) (limit : Nat) :
    remaining limit flights = (limit + 1 - first.2.wake) + remaining limit rest := by
  induction flights generalizing first rest with
  | nil => simp [earliest?] at h
  | cons flight tail ih =>
    simp only [earliest?] at h
    split at h
    · next none =>
      cases h
      cases tail with
      | nil => simp [remaining]
      | cons a l =>
        simp only [earliest?] at none
        split at none
        · contradiction
        · split at none <;> contradiction
    · next other others found =>
      have := ih found
      simp only [remaining] at this ⊢
      split at h <;> cases h
      · simp only [remaining]
        omega
      · rfl

def wakeTime (t : Timeline ι σ κ π) (length random : Nat) : Nat :=
  t.now + length + 1 + random % t.grain

theorem lt_wakeTime (t : Timeline ι σ κ π) (length random : Nat) :
    t.now < t.wakeTime length random := by
  unfold wakeTime
  omega

def place (t : Timeline ι σ κ π) (name : ι) : Course κ π → Timeline ι σ κ π
  | .landed landing => { t with landed := t.landed ++ [(name, landing)] }
  | .waiting wait task =>
    let (random, dice) := t.dice.roll
    let (length, expired) := wait.draw random
    { t with dice, flights := t.flights ++ [(name, ⟨t.wakeTime length random, expired, task⟩)] }

theorem place_waiting (t : Timeline ι σ κ π) (name : ι) (wait : Wait) (task : Task κ π) :
    ∃ dice wake expired, t.now < wake ∧ t.place name (.waiting wait task) =
      { t with dice, flights := t.flights ++ [(name, ⟨wake, expired, task⟩)] } :=
  ⟨_, _, _, lt_wakeTime .., rfl⟩

theorem shared_place (t : Timeline ι σ κ π) (name : ι) (course : Course κ π) :
    (t.place name course).shared = t.shared := by
  cases course with
  | landed landing => rfl
  | waiting wait task =>
    obtain ⟨dice, wake, expired, -, placed⟩ := t.place_waiting name wait task
    rw [placed]

theorem remaining_place (t : Timeline ι σ κ π) (name : ι) (course : Course κ π) (limit : Nat) :
    remaining limit (t.place name course).flights ≤
      remaining limit t.flights + (limit - t.now) := by
  cases course with
  | landed landing => exact Nat.le_add_right ..
  | waiting wait task =>
    obtain ⟨dice, wake, expired, later, placed⟩ := t.place_waiting name wait task
    rw [placed]
    simp only [remaining_append, remaining]
    omega

end

section
variable {ι σ κ π : Type} [Store σ κ π]

def roll (t : Timeline ι σ κ π) : Nat × Timeline ι σ κ π :=
  let (random, dice) := t.dice.roll
  (random, { t with dice })

def wake (t : Timeline ι σ κ π) (name : ι) (flight : Flight κ π)
    (others : List (ι × Flight κ π)) : Timeline ι σ κ π :=
  let (random, dice) := t.dice.roll
  let (shared, course) := t.shared.resume flight.task flight.expired random stopwatch
  place { t with shared, dice, now := max t.now flight.wake, flights := others } name course

theorem remaining_wake_lt (t : Timeline ι σ κ π) {name : ι} {flight : Flight κ π}
    {others : List (ι × Flight κ π)} {limit : Nat} (due : flight.wake ≤ limit)
    (found : earliest? t.flights = some ((name, flight), others)) :
    remaining limit (t.wake name flight others).flights < remaining limit t.flights := by
  have total := remaining_earliest? found limit
  have bound := remaining_place
    { t with
      shared := (t.shared.resume flight.task flight.expired t.dice.roll.1 stopwatch).1
      dice := t.dice.roll.2, now := max t.now flight.wake, flights := others }
    name (t.shared.resume flight.task flight.expired t.dice.roll.1 stopwatch).2 limit
  simp only [wake] at bound ⊢
  simp only at total
  omega

def advance (t : Timeline ι σ κ π) (limit : Nat) : Timeline ι σ κ π :=
  match _found : earliest? t.flights with
  | none => t
  | some ((name, flight), others) =>
    if _due : flight.wake ≤ limit then advance (t.wake name flight others) limit else t
termination_by remaining limit t.flights
decreasing_by exact remaining_wake_lt t _due _found

def waitUntil (t : Timeline ι σ κ π) (instant : Nat) : Timeline ι σ κ π :=
  let t := t.advance instant
  { t with now := max t.now instant }

def pause (t : Timeline ι σ κ π) (wait : Wait) : Timeline ι σ κ π :=
  let (random, t) := t.roll
  t.waitUntil (t.wakeTime (wait.draw random).1 random)

variable [DecidableEq ι]

def flight? (t : Timeline ι σ κ π) (name : ι) : Option (Flight κ π) := t.flights.lookup name

def collect (t : Timeline ι σ κ π) (name : ι) : Option (Landing κ) × Timeline ι σ κ π :=
  (t.landed.lookup name, { t with landed := t.landed.filter (·.1 != name) })

def drop (t : Timeline ι σ κ π) (name : ι) : Timeline ι σ κ π :=
  { t with
    flights := t.flights.filter (·.1 != name)
    landed := t.landed.filter (·.1 != name) }

def setFlag (t : Timeline ι σ κ π) (name : ι) (value : Bool) : Timeline ι σ κ π :=
  { t with
    flights := t.flights.map fun (other, flight) =>
      if other = name then (other, { flight with task := flight.task.setFlag value })
      else (other, flight) }

def goOn (name : ι) : Nat → Timeline ι σ κ π → Timeline ι σ κ π
  | 0, t => t
  | bound + 1, t =>
    match t.flight? name with
    | none => t
    | some flight => goOn name bound (t.advance flight.wake)

def await (t : Timeline ι σ κ π) (name : ι) : Timeline ι σ κ π :=
  match t.flight? name with
  | none => t
  | some flight => t.goOn name (flight.task.waits σ)

def launchStatement (t : Timeline ι σ κ π) (name : ι) (statement : Statement) (session : κ) :
    Timeline ι σ κ π :=
  let (shared, course) := t.shared.launchStatement statement session
  place { t with shared } name course

def launchIteration (t : Timeline ι σ κ π) (name : ι) (loop : Loop κ) : Timeline ι σ κ π :=
  let (random, t) := t.roll
  let (shared, course) := t.shared.launchIteration loop random stopwatch
  place { t with shared } name course

def launchRun (t : Timeline ι σ κ π) (name : ι) (loop : Loop κ) (flag : Bool) :
    Timeline ι σ κ π :=
  let (random, t) := t.roll
  let (shared, course) := t.shared.continueRun loop flag 0 random stopwatch
  place { t with shared } name course

def connect (t : Timeline ι σ κ π) (node : Nat) : Timeline ι σ κ π × Except StoreError κ :=
  let (store, latency) := Store.dial t.shared.store node
  let t := { t with shared := { t.shared with store } }
  let t := match latency with
    | some latency => t.pause (.roundTrip latency)
    | none => t
  let (store, result) := Store.accept t.shared.store node
  ({ t with shared := { t.shared with store } }, result)

end

end Timeline

end LedgerDrill
