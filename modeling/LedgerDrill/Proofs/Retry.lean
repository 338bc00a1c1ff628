import LedgerDrill.Client
import Mathlib.Data.ENat.Lattice

namespace LedgerDrill.Retry

variable {σ α : Type} {tryOnce : σ → σ × Except StoreError α} {pause : σ → σ} {results : Nat → Except StoreError α}
variable {tries last left : Nat}

/-! ## The first success -/

/-- The position of the first success, counted from one. It is infinite if there is none. -/
noncomputable def firstSuccess (results : Nat → Except StoreError α) : ℕ∞ :=
  ⨅ (i : Nat) (_ : (results i).isOk), ((i + 1 : Nat) : ℕ∞)

theorem lt_firstSuccess_iff {n : Nat} :
    (n : ℕ∞) < firstSuccess results ↔ ∀ i < n, (results i).isOk = false := by
  have next : (n : ℕ∞) < firstSuccess results ↔ ((n + 1 : Nat) : ℕ∞) ≤ firstSuccess results := by
    rw [Nat.cast_add, Nat.cast_one, ENat.add_one_le_iff (ENat.natCast_ne_top n)]
  rw [next, firstSuccess]
  simp only [le_iInf_iff, Nat.cast_le]
  constructor
  · intro bound i before
    by_contra success
    have := bound i (Bool.not_eq_false _ ▸ success)
    omega
  · intro failed i success
    by_contra before
    rw [failed i (by omega)] at success
    cases success

theorem firstSuccess_le_iff {n : Nat} : firstSuccess results ≤ n ↔ ∃ i < n, (results i).isOk := by
  rw [← not_lt, lt_firstSuccess_iff]
  simp

/-- The try at which a retry ends, counted from zero: the first success, or the last try that there is. -/
def IsLast (tries : Nat) (results : Nat → Except StoreError α) (last : Nat) : Prop :=
  ((last + 1 : Nat) : ℕ∞) = min (tries : ℕ∞) (firstSuccess results)

theorem exists_isLast (some : 1 ≤ tries) (results : Nat → Except StoreError α) : ∃ last, IsLast tries results last := by
  have finite : min (tries : ℕ∞) (firstSuccess results) ≠ ⊤ :=
    ne_top_of_le_ne_top (ENat.natCast_ne_top tries) (min_le_left _ _)
  obtain ⟨calls, same⟩ := ENat.ne_top_iff_exists.mp finite
  have positive : 0 < calls := by
    have first : ((0 : Nat) : ℕ∞) < firstSuccess results := lt_firstSuccess_iff.mpr fun i none => by omega
    have least : ((0 : Nat) : ℕ∞) < min (tries : ℕ∞) (firstSuccess results) := lt_min (Nat.cast_lt.mpr some) first
    exact Nat.cast_lt.mp (same ▸ least)
  obtain ⟨last, rfl⟩ := Nat.exists_eq_add_of_le' positive
  exact ⟨last, same⟩

theorem IsLast.lt (ends : IsLast tries results last) : last < tries :=
  Nat.cast_le.mp (ends.le.trans (min_le_left _ _))

theorem IsLast.failed (ends : IsLast tries results last) : ∀ i < last, (results i).isOk = false := by
  have within : ((last + 1 : Nat) : ℕ∞) ≤ firstSuccess results := ends.le.trans (min_le_right _ _)
  exact lt_firstSuccess_iff.mp (lt_of_lt_of_le (Nat.cast_lt.mpr (Nat.lt_succ_self last)) within)

theorem IsLast.isOk_iff (ends : IsLast tries results last) : (results last).isOk ↔ firstSuccess results ≤ tries := by
  rw [firstSuccess_le_iff]
  refine ⟨fun success => ⟨last, ends.lt, success⟩, fun found => ?_⟩
  have position : ((last + 1 : Nat) : ℕ∞) = firstSuccess results :=
    ends.trans (min_eq_right (firstSuccess_le_iff.mpr found))
  obtain ⟨i, early, success⟩ := firstSuccess_le_iff.mp position.ge
  rcases Nat.lt_succ_iff_lt_or_eq.mp early with before | rfl
  · rw [ends.failed i before] at success
    cases success
  · exact success

theorem IsLast.ok (ends : IsLast tries results last) (within : firstSuccess results ≤ tries) :
    ∃ value, results last = .ok value := by
  have success := ends.isOk_iff.mpr within
  cases told : results last with
  | error e =>
      rw [told] at success
      cases success
  | ok value => exact ⟨value, rfl⟩

theorem IsLast.error (ends : IsLast tries results last) (beyond : tries < firstSuccess results) :
    ∃ e, results last = .error e := by
  have failure := ends.isOk_iff.not.mpr (not_le.mpr beyond)
  cases told : results last with
  | error e => exact ⟨e, rfl⟩
  | ok value =>
      rw [told] at failure
      exact absurd rfl failure

theorem IsLast.isOk_of_lt (ends : IsLast tries results last) (more : last + 1 < tries) : (results last).isOk := by
  refine ends.isOk_iff.mpr (not_lt.mp fun later => ?_)
  have all : ((last + 1 : Nat) : ℕ∞) = tries := ends.trans (min_eq_left later.le)
  exact absurd (Nat.cast_injective all) more.ne

/-! ## Tries in a row -/

def before (tryOnce : σ → σ × Except StoreError α) (pause : σ → σ) : σ → Nat → σ
  | state, 0 => state
  | state, i + 1 => before tryOnce pause (pause (tryOnce state).1) i

def outcomes (tryOnce : σ → σ × Except StoreError α) (pause : σ → σ) (state : σ) (i : Nat) : Except StoreError α :=
  (tryOnce (before tryOnce pause state i)).2

theorem before_induction {P : Nat → σ → Prop} {state : σ} {n : Nat} (start : P n state)
    (next : ∀ n state, P n state → P (n + 1) (pause (tryOnce state).1)) (i : Nat) :
    P (n + i) (before tryOnce pause state i) := by
  induction i generalizing state n with
  | zero => exact start
  | succ i ih =>
      rw [← Nat.succ_add_eq_add_succ]
      exact ih (next n state start)

theorem attempt_of_error {state state' : σ} {e : StoreError} (told : tryOnce state = (state', .error e)) :
    attempt tryOnce pause (left + 1) state = attempt tryOnce pause left (pause state') := by
  rw [attempt, told]

theorem attempt_of_ok {state state' : σ} {value : α} (told : tryOnce state = (state', .ok value)) :
    attempt tryOnce pause (left + 1) state = (state', .ok value) := by
  rw [attempt, told]

theorem attempt_eq {state : σ} (short : last ≤ left)
    (failed : ∀ i < last, (outcomes tryOnce pause state i).isOk = false)
    (ends : last < left → (outcomes tryOnce pause state last).isOk) :
    attempt tryOnce pause left state = tryOnce (before tryOnce pause state last) := by
  -- On the tries left, from any state: after a failed first try the rest is a retry from the paused state.
  induction left generalizing state last with
  | zero =>
      cases Nat.le_zero.mp short
      rfl
  | succ left ih =>
      cases told : tryOnce state with
      | mk state' result =>
          have now : outcomes tryOnce pause state 0 = result := congrArg Prod.snd told
          cases last with
          | zero =>
              cases result with
              | error e =>
                  rw [now] at ends
                  cases ends (Nat.succ_pos left)
              | ok value => rw [attempt_of_ok told, before, told]
          | succ last =>
              have later : pause (tryOnce state).1 = pause state' := by rw [told]
              cases result with
              | error e =>
                  rw [attempt_of_error told, before, later]
                  refine ih (Nat.le_of_succ_le_succ short) (fun i earlier => ?_) fun more => ?_
                  · exact later ▸ failed (i + 1) (Nat.succ_lt_succ earlier)
                  · exact later ▸ ends (Nat.succ_lt_succ more)
              | ok value =>
                  have failure := failed 0 (Nat.succ_pos last)
                  rw [now] at failure
                  cases failure

/-- A retry leaves what its last try leaves. Its result is that of this try. -/
theorem keepTrying_eq (some : 1 ≤ tries) (name : String) (tryOnce : σ → σ × Except StoreError α) (pause : σ → σ)
    (state : σ) : ∃ last, IsLast tries (outcomes tryOnce pause state) last ∧
      keepTrying tries name tryOnce pause state = ((tryOnce (before tryOnce pause state last)).1,
        (outcomes tryOnce pause state last).mapError (.setupExhausted name tries)) := by
  obtain ⟨last, ends⟩ := exists_isLast some (outcomes tryOnce pause state)
  obtain ⟨left, rfl⟩ := Nat.exists_eq_add_of_le' some
  refine ⟨last, ends, ?_⟩
  rw [keepTrying, attempt_eq (Nat.le_of_lt_succ ends.lt) ends.failed fun more =>
    ends.isOk_of_lt (Nat.succ_lt_succ more)]
  rfl

theorem keepTrying_induction {P : σ → Prop} {state : σ} (start : P state)
    (calls : ∀ state, P state → P (tryOnce state).1) (pauses : ∀ state, P state → P (pause state))
    (tries : Nat) (name : String) : P (keepTrying tries name tryOnce pause state).1 := by
  rcases Nat.eq_zero_or_pos tries with rfl | some
  · exact start
  · obtain ⟨last, -, tried⟩ := keepTrying_eq some name tryOnce pause state
    rw [tried]
    have before := before_induction (P := fun _ => P) (n := 0) start
      (fun _ state holds => pauses _ (calls state holds)) last
    exact calls _ before

/-! ## Recorded tries -/

inductive Act
  | call
  | sleep (length : Duration)
deriving DecidableEq

def call (results : Nat → Except StoreError α) (trail : List Act) : List Act × Except StoreError α :=
  (trail ++ [.call], results (trail.count .call))

def sleep (delay : Duration) (trail : List Act) : List Act := trail ++ [.sleep delay]

variable {delay : Duration}

theorem before_call (trail : List Act) (i : Nat) : before (call results) (sleep delay) trail i =
    trail ++ (List.replicate i [Act.call, .sleep delay]).flatten := by
  induction i generalizing trail with
  | zero => simp [before]
  | succ i ih => simp [before, ih, call, sleep, List.replicate_succ]

theorem outcomes_call (results : Nat → Except StoreError α) (delay : Duration) :
    outcomes (call results) (sleep delay) [] = results := by
  funext i
  have counted : ((List.replicate i [Act.call, .sleep delay]).flatten).count .call = i := by
    induction i with
    | zero => rfl
    | succ i ih => simp [List.replicate_succ, ih]
  rw [outcomes, before_call, List.nil_append, call, counted]

theorem intersperse_replicate (count : Nat) (delay : Duration) :
    (List.replicate (count + 1) Act.call).intersperse (.sleep delay) =
      (List.replicate count [Act.call, .sleep delay]).flatten ++ [.call] := by
  induction count with
  | zero => rfl
  | succ count ih =>
      rw [List.replicate_succ (n := count), List.flatten_cons, List.append_assoc, ← ih]
      rfl

theorem keepTrying_call (some : 1 ≤ tries) (name : String) (delay : Duration) (results : Nat → Except StoreError α) :
    ∃ last, IsLast tries results last ∧ keepTrying tries name (call results) (sleep delay) [] =
      ((List.replicate (last + 1) Act.call).intersperse (.sleep delay),
        (results last).mapError (.setupExhausted name tries)) := by
  obtain ⟨last, ends, tried⟩ := keepTrying_eq some name (call results) (sleep delay) []
  rw [outcomes_call] at ends tried
  refine ⟨last, ends, ?_⟩
  rw [tried, before_call, List.nil_append, call, intersperse_replicate]

end LedgerDrill.Retry
