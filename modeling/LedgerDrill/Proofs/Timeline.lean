import LedgerDrill.Client

namespace LedgerDrill.Timeline
open Workload

/-! ## The tasks that wait -/

section

variable {ι κ π : Type} {flights rest : List (ι × Flight κ π)} {first : ι × Flight κ π}

theorem eq_nil_of_earliest? (none : earliest? flights = none) : flights = [] := by
  cases flights with
  | nil => rfl
  | cons flight tail =>
      simp only [earliest?] at none
      split at none
      · cases none
      · split at none <;> cases none

theorem split_earliest? (found : earliest? flights = some (first, rest)) :
    ∃ front back, flights = front ++ first :: back ∧ rest = front ++ back := by
  induction flights generalizing first rest with
  | nil => cases found
  | cons flight tail ih =>
      simp only [earliest?] at found
      split at found
      · next none =>
          cases found
          exact ⟨[], [], congrArg _ (eq_nil_of_earliest? none), rfl⟩
      · next other others later =>
          obtain ⟨front, back, rfl, rfl⟩ := ih later
          split at found <;> cases found
          · exact ⟨flight :: front, back, rfl, rfl⟩
          · exact ⟨[], _, rfl, rfl⟩

theorem perm_earliest? (found : earliest? flights = some (first, rest)) : flights.Perm (first :: rest) := by
  obtain ⟨front, back, rfl, rfl⟩ := split_earliest? found
  exact List.perm_middle

theorem le_earliest? (found : earliest? flights = some (first, rest)) :
    ∀ flight ∈ flights, first.2.wake ≤ flight.2.wake := by
  induction flights generalizing first rest with
  | nil => cases found
  | cons flight tail ih =>
      simp only [earliest?] at found
      split at found
      · next none =>
          cases found
          rw [eq_nil_of_earliest? none]
          exact List.forall_mem_singleton.mpr (Nat.le_refl _)
      · next other others later =>
          have least := ih later
          split at found <;> cases found
          · next before =>
              exact List.forall_mem_cons.mpr ⟨Nat.le_of_lt before, least⟩
          · next after =>
              refine List.forall_mem_cons.mpr ⟨Nat.le_refl _, fun flight member => ?_⟩
              exact Nat.le_trans (Nat.le_of_not_lt after) (least flight member)

theorem mem_flights_place {σ : Type} {t : Timeline ι σ κ π} {name : ι} {course : Course κ π} {named : ι × Flight κ π}
    (member : named ∈ (t.place name course).flights) :
    named ∈ t.flights ∨ (named.1 = name ∧ ∃ wait, course = .waiting wait named.2.task) := by
  cases course with
  | landed landing => exact Or.inl member
  | waiting wait task =>
      obtain ⟨dice, wake, expired, -, placed⟩ := t.place_waiting name wait task
      rw [placed] at member
      rcases List.mem_append.mp member with before | new
      · exact Or.inl before
      · cases List.mem_singleton.mp new
        exact Or.inr ⟨rfl, wait, rfl⟩

end

variable {ι σ κ π : Type} [Store σ κ π] {t : Timeline ι σ κ π}

theorem wake_eq (t : Timeline ι σ κ π) (name : ι) (flight : Flight κ π) (others : List (ι × Flight κ π)) :
    t.wake name flight others = place
      { t with
        shared := (t.shared.resume flight.task flight.expired t.dice.roll.1 stopwatch).1
        dice := t.dice.roll.2, now := max t.now flight.wake, flights := others }
      name (t.shared.resume flight.task flight.expired t.dice.roll.1 stopwatch).2 := rfl

theorem lt_wake_advance (t : Timeline ι σ κ π) (limit : Nat) :
    ∀ flight ∈ (t.advance limit).flights, limit < flight.2.wake := by
  fun_induction Timeline.advance t limit with
  | case1 t none =>
      rw [eq_nil_of_earliest? none]
      exact fun _ member => absurd member List.not_mem_nil
  | case2 t name flight others found due ih => exact ih
  | case3 t name flight others found early =>
      exact fun other member => Nat.lt_of_lt_of_le (Nat.lt_of_not_le early) (le_earliest? found other member)

/-! ## While no task waits -/

theorem advance_of_no_flights (none : t.flights = []) (limit : Nat) : t.advance limit = t := by
  have nobody : earliest? t.flights = Option.none := none ▸ rfl
  fun_cases Timeline.advance t limit with
  | case1 => rfl
  | case2 name flight others found => cases nobody.symm.trans found
  | case3 => rfl

theorem pause_of_no_flights (none : t.flights = []) (wait : Wait) : (t.pause wait).shared = t.shared ∧
    (t.pause wait).flights = [] ∧ (t.pause wait).landed = t.landed := by
  unfold pause roll
  generalize t.dice.roll = rolled
  have quiet : ({ t with dice := rolled.2 } : Timeline ι σ κ π).flights = [] := none
  simp only [waitUntil, advance_of_no_flights quiet]
  exact ⟨trivial, none, trivial⟩

/-! ## What every step keeps -/

/-- Every step of a task keeps it, whichever task that is, and it does not depend on the clock. -/
structure Stable (P : Timeline ι σ κ π → Prop) : Prop where
  wake {t : Timeline ι σ κ π} {name : ι} {flight : Flight κ π} {others : List (ι × Flight κ π)}
    (found : t.flights.Perm ((name, flight) :: others)) (holds : P t) : P (t.wake name flight others)
  clock {t : Timeline ι σ κ π} (now : Nat) (dice : Dice) (holds : P t) : P { t with now, dice }

namespace Stable

variable {P : Timeline ι σ κ π → Prop}

theorem advance (stable : Stable P) (holds : P t) (limit : Nat) : P (t.advance limit) := by
  fun_induction Timeline.advance t limit with
  | case1 t none => exact holds
  | case2 t name flight others found due ih => exact ih (stable.wake (perm_earliest? found) holds)
  | case3 t name flight others found early => exact holds

theorem pause (stable : Stable P) (holds : P t) (wait : Wait) : P (t.pause wait) := by
  unfold Timeline.pause roll
  generalize t.dice.roll = rolled
  exact stable.clock _ _ (stable.advance (stable.clock t.now rolled.2 holds) _)

variable [DecidableEq ι]

theorem goOn (stable : Stable P) (holds : P t) (name : ι) (bound : Nat) : P (goOn name bound t) := by
  induction bound generalizing t with
  | zero => exact holds
  | succ bound ih =>
      unfold Timeline.goOn
      split
      · exact holds
      · exact ih (stable.advance holds _)

theorem await (stable : Stable P) (holds : P t) (name : ι) : P (t.await name) := by
  unfold Timeline.await
  split
  · exact holds
  · exact stable.goOn holds name _

omit [DecidableEq ι] in
theorem connect (stable : Stable P) {node : Nat}
    (dials : P { t with shared := { t.shared with store := (Store.dial t.shared.store node).1 } })
    (accepts : ∀ {t : Timeline ι σ κ π}, P t →
      P { t with shared := { t.shared with store := (Store.accept t.shared.store node).1 } }) :
    P (t.connect node).1 := by
  unfold Timeline.connect
  cases latency : (Store.dial t.shared.store node).2 with
  | none =>
      simp only [latency]
      exact accepts dials
  | some latency' =>
      simp only [latency]
      exact accepts (stable.pause dials (.roundTrip latency'))

theorem ask {P : Workplace σ κ π → Prop} (stable : Stable P) {p : Workplace σ κ π} {node : Nat} {statement : Statement}
    (connected : P (p.connect node).1)
    (launches : ∀ {p : Workplace σ κ π} (session : κ), P p → P (p.launchStatement none statement session))
    (collects : ∀ {p : Workplace σ κ π}, P p → P (p.collect none).2) : P (Client.ask p node statement).1 := by
  unfold Client.ask
  split
  · next p' e refused =>
      rw [refused] at connected
      exact connected
  · next p' session accepted =>
      rw [accepted] at connected
      have collected := collects (stable.await (launches session connected) none)
      split <;>
        · next same =>
            rw [same] at collected
            exact collected

end Stable

end LedgerDrill.Timeline
