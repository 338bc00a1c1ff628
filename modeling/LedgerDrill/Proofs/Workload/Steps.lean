import LedgerDrill.Proofs.Timeline

namespace LedgerDrill
open Workload

section

variable {ι σ κ π : Type}

namespace Workload.Loop

theorem store_conclude [Store σ κ π] (l : Loop κ) (store : σ) (session : Option κ) (answer : Answer) :
    (l.conclude store session answer).store = store := by
  unfold Loop.conclude
  split
  split <;> rfl

theorem store_ofPlanTurn [Store σ κ π] (l : Loop κ) (turn : PlanTurn σ κ π) :
    (l.ofPlanTurn turn).store = turn.store := by
  unfold Loop.ofPlanTurn
  split
  · exact store_conclude l _ _ _
  · rfl

end Workload.Loop

end

/-- A relation that holds between a store before each of its operations and after it. -/
structure Store.Obeys {σ : Type} (κ π : Type) [Store σ κ π] (R : σ → σ → Prop) : Prop where
  refl : ∀ store, R store store
  trans : ∀ {first second third : σ}, R first second → R second third → R first third
  dial : ∀ store node, R store (Store.dial store node).1
  accept : ∀ store node, R store (Store.accept store node).1
  start : ∀ statement store (session : κ), R store (Store.start statement store session).store
  resume : ∀ (point : π) store (session : κ), R store (Store.resume point store session).store

namespace Store.Obeys

variable {σ κ π : Type} [Store σ κ π] {R : σ → σ → Prop} {store : σ} {session : κ} {random : Nat} {l : Loop κ}

/-! ## Loops -/

theorem ofTurn (obeys : Store.Obeys κ π R) {current : Statement} {rest : List Statement} {turn : Turn σ κ π}
    {advance : Reply → σ → κ → PlanTurn σ κ π} (turned : R store turn.store)
    (advances : ∀ reply store session, R store (advance reply store session).store) :
    R store (PlanTurn.ofTurn current rest turn advance).store := by
  unfold PlanTurn.ofTurn
  split
  · exact turned
  · split
    · exact turned
    · exact obeys.trans turned (advances _ _ _)

theorem startPlan (obeys : Store.Obeys κ π R) (statements : List Statement) (last : Reply) (store : σ)
    (session : κ) : R store (Workload.startPlan statements last store session).store := by
  induction statements generalizing last store session with
  | nil => exact obeys.refl store
  | cons current rest ih => exact obeys.ofTurn (obeys.start current store session) ih

theorem resumePlan (obeys : Store.Obeys κ π R) (current : Statement) (point : π) (rest : List Statement)
    (store : σ) (session : κ) : R store (Workload.resumePlan current point rest store session).store :=
  obeys.ofTurn (obeys.resume point store session) (obeys.startPlan rest)

theorem work (obeys : Store.Obeys κ π R) (l : Loop κ) (random : Nat) (store : σ) (session : κ) :
    R store (l.work random store session).store := by
  unfold Loop.work
  split
  · rw [Loop.store_conclude]
    exact obeys.refl store
  · rw [Loop.store_ofPlanTurn]
    exact obeys.startPlan _ _ store session

theorem ofRollback (obeys : Store.Obeys κ π R) {turn : Turn σ κ π} (turned : R store turn.store) :
    R store (l.ofRollback random turn).store := by
  unfold Loop.ofRollback
  split
  · rw [Loop.store_conclude]
    exact turned
  · exact obeys.trans turned (obeys.work l random _ _)
  · exact turned

theorem use (obeys : Store.Obeys κ π R) (l : Loop κ) (random : Nat) (store : σ) (session : κ) :
    R store (l.use random store session).store := by
  unfold Loop.use
  split
  · exact obeys.work l random store session
  · exact obeys.ofRollback (obeys.start .rollback store session)

theorem connected (obeys : Store.Obeys κ π R) (l : Loop κ) (random : Nat) (store : σ) :
    R store (l.connected random store).store := by
  have accepted := obeys.accept store l.node
  simp only [Loop.connected]
  split
  · rw [Loop.store_conclude]
    exact accepted
  · exact obeys.trans accepted (obeys.use l random _ _)

theorem startLoop (obeys : Store.Obeys κ π R) (l : Loop κ) (random : Nat) (store : σ) :
    R store (l.start random store).store := by
  have dialled := obeys.dial store l.node
  unfold Loop.start
  split
  · exact obeys.use l random store _
  · split
    · next dial =>
        rw [dial] at dialled
        exact obeys.trans dialled (obeys.connected l random _)
    · next dial =>
        rw [dial] at dialled
        exact dialled

theorem resumeLoop (obeys : Store.Obeys κ π R) (l : Loop κ) (point : Point κ π) (expired : Bool) (random : Nat)
    (store : σ) : R store (l.resume point expired random store).store := by
  cases point with
  | backingOff => exact obeys.refl store
  | rollingBack session point => exact obeys.ofRollback (obeys.resume point store session)
  | working session current point rest =>
      simp only [Loop.resume, Loop.store_ofPlanTurn]
      exact obeys.resumePlan current point rest store session
  | connecting =>
      simp only [Loop.resume]
      split
      · rw [Loop.store_conclude]
        exact obeys.refl store
      · exact obeys.connected l random store

/-! ## Tasks -/

variable {shared : Shared σ} {now : Outcome.Instant}

theorem continueRun (obeys : Store.Obeys κ π R) (shared : Shared σ) (l : Loop κ) (flag : Bool) (completed : Nat) :
    R shared.store (shared.continueRun l flag completed random now).1.store := by
  unfold Shared.continueRun
  split
  · exact obeys.startLoop l random shared.store
  · exact obeys.refl shared.store

theorem resumeTask (obeys : Store.Obeys κ π R) (shared : Shared σ) (task : Task κ π) (expired : Bool) :
    R shared.store (shared.resume task expired random now).1.store := by
  cases task with
  | statement session point => exact obeys.resume point shared.store session
  | iteration i => exact obeys.resumeLoop i.loop i.point expired random shared.store
  | running i flag completed => exact obeys.resumeLoop i.loop i.point expired random shared.store
  | resting l flag completed => exact obeys.continueRun shared l flag completed

/-! ## Time -/

variable {ι : Type} {t : Timeline ι σ κ π}

theorem wake (obeys : Store.Obeys κ π R) (t : Timeline ι σ κ π) (name : ι) (flight : Flight κ π)
    (others : List (ι × Flight κ π)) : R t.shared.store (t.wake name flight others).shared.store := by
  unfold Timeline.wake
  rw [Timeline.shared_place]
  exact obeys.resumeTask t.shared flight.task flight.expired

theorem stable (obeys : Store.Obeys κ π R) (store : σ) :
    Timeline.Stable fun t : Timeline ι σ κ π => R store t.shared.store where
  wake {t name flight others} _ before := obeys.trans before (obeys.wake t name flight others)
  clock _ _ before := before

theorem pause (obeys : Store.Obeys κ π R) (t : Timeline ι σ κ π) (wait : Wait) :
    R t.shared.store (t.pause wait).shared.store :=
  (obeys.stable t.shared.store).pause (obeys.refl t.shared.store) wait

end Store.Obeys

end LedgerDrill
