import LedgerDrill.Proofs.Cluster.Calls
import LedgerDrill.Proofs.SortedMap
import Mathlib.Algebra.BigOperators.Ring.Finset

namespace LedgerDrill.Cluster

/-- The writes that move an amount from an account to the next one. -/
def moveWrites (source : Nat) (amount : Int) : List Write :=
  [⟨source, -amount⟩, ⟨source + 1, amount⟩]

/-- The writes of a move between two of the accounts `0` to `n`. -/
def IsMove (n : Nat) (writes : List Write) : Prop :=
  ∃ source amount, source + 1 ≤ n ∧ writes = moveWrites source amount

/-- What writes leave on an account that held nothing, over exact integers. -/
def exactBalance (writes : List Write) (uid : Nat) : Int :=
  (writes.map fun w => if w.uid = uid then w.delta else 0).sum

variable {t : Accounts} {n uid source : Nat} {amount : Int} {writes : List Write} {commits : List (List Write)}

theorem sum_exactBalance (n : Nat) (writes : List Write) :
    ∑ uid ∈ Finset.range (n + 1), exactBalance writes uid =
      (writes.map fun w => if w.uid ≤ n then w.delta else 0).sum := by
  induction writes with
  | nil => simp [exactBalance]
  | cons w rest ih =>
      have first : ∑ uid ∈ Finset.range (n + 1), (if w.uid = uid then w.delta else 0) =
          if w.uid ≤ n then w.delta else 0 := by
        simp only [Finset.sum_ite_eq, Finset.mem_range, Nat.lt_succ_iff]
      simp only [exactBalance, List.map_cons, List.sum_cons, Finset.sum_add_distrib] at ih ⊢
      rw [first, ih]

namespace Accounts

theorem contains_write (t : Accounts) (w : Write) : (t.write w).contains uid = t.contains uid :=
  SortedMap.contains_modify _

theorem contains_apply (writes : List Write) : (t.apply writes).contains uid = t.contains uid := by
  induction writes generalizing t with
  | nil => rfl
  | cons w rest ih => exact ih.trans (contains_write t w)

theorem contains_seed : (seed n).contains uid = decide (uid ≤ n) := by
  rw [Bool.eq_iff_iff, SortedMap.contains_iff, decide_eq_true_iff]
  constructor
  · rintro ⟨v, member⟩
    obtain ⟨other, bound, same⟩ := List.mem_map.mp member
    cases same
    exact Nat.le_of_lt_succ (List.mem_range.mp bound)
  · intro inside
    exact ⟨0, List.mem_map.mpr ⟨uid, List.mem_range.mpr (Nat.lt_succ_of_le inside), rfl⟩⟩

theorem find?_write (t : Accounts) (w : Write) (uid : Nat) :
    (t.write w).find? uid = (t.find? uid).map (· + .ofInt (if w.uid = uid then w.delta else 0)) := by
  by_cases same : w.uid = uid
  · rw [write, same, SortedMap.find?_modify_self, if_pos rfl]
  · rw [write, SortedMap.find?_modify_ne _ (Ne.symm same), if_neg same]
    cases t.find? uid with
    | none => rfl
    | some balance => exact congrArg some (Int64.add_zero balance).symm

/-- A balance that wraps around at every write is the exact balance that wraps around once. -/
theorem find?_apply (t : Accounts) (writes : List Write) (uid : Nat) :
    (t.apply writes).find? uid = (t.find? uid).map (· + .ofInt (exactBalance writes uid)) := by
  induction writes generalizing t with
  | nil =>
      cases found : t.find? uid with
      | none => exact found
      | some balance => exact found.trans (congrArg some (Int64.add_zero balance).symm)
  | cons w rest ih =>
      have later := ih (t.write w)
      rw [find?_write, Option.map_map] at later
      refine later.trans (congrArg (Option.map · (t.find? uid)) (funext fun balance => ?_))
      rw [Function.comp_apply, Int64.add_assoc, ← Int64.ofInt_add]
      rfl

theorem entries_apply_seed (n : Nat) (writes : List Write) :
    ((seed n).apply writes).entries =
      (List.range (n + 1)).map fun uid => (uid, .ofInt (exactBalance writes uid)) := by
  have closed : (seed n).apply writes =
      (seed n).mapWithKey fun uid balance => balance + .ofInt (exactBalance writes uid) :=
    SortedMap.ext_find? fun uid => by rw [find?_apply, SortedMap.find?_mapWithKey]
  rw [closed]
  simp only [SortedMap.mapWithKey, seed, List.map_map, Function.comp_def, Int64.zero_add]

example : ((seed 2).apply [⟨1, 2 ^ 63 - 1⟩, ⟨2, 5⟩, ⟨1, 1⟩]).entries = [(0, 0), (1, Int64.minValue), (2, 5)] := by
  decide

theorem sum_ofInt (l : List Int) : (l.map Int64.ofInt).sum = .ofInt l.sum := by
  induction l with
  | nil => rfl
  | cons a l ih => rw [List.map_cons, List.sum_cons, ih, List.sum_cons, Int64.ofInt_add]

theorem total_apply_seed (n : Nat) (writes : List Write) :
    ((seed n).apply writes).total = (∑ uid ∈ Finset.range (n + 1), exactBalance writes uid).bmod Int64.size := by
  have values : ((seed n).apply writes).values =
      ((List.range (n + 1)).map (exactBalance writes)).map Int64.ofInt := by
    rw [SortedMap.values, entries_apply_seed, List.map_map, List.map_map]
    rfl
  rw [total, values, sum_ofInt, Int64.toInt_ofInt]
  rfl

theorem sum_values_of_fits (fits : ∀ uid ≤ n, Int64.minValue.toInt ≤ exactBalance writes uid ∧
      exactBalance writes uid ≤ Int64.maxValue.toInt) :
    (((seed n).apply writes).values.map Int64.toInt).sum = ∑ uid ∈ Finset.range (n + 1), exactBalance writes uid := by
  rw [SortedMap.values, entries_apply_seed, List.map_map, List.map_map]
  refine congrArg List.sum (List.map_congr_left fun uid member => ?_)
  obtain ⟨low, high⟩ := fits uid (Nat.le_of_lt_succ (List.mem_range.mp member))
  rw [Int64.toInt_minValue] at low
  rw [Int64.toInt_maxValue] at high
  exact Int64.toInt_ofInt_of_le low (Int.lt_of_le_sub_one high)

end Accounts

/-! ## Tables after moves -/

theorem tableOf_commits (n : Nat) (commits : List (List Write)) :
    tableOf (.create n :: commits.map .write) = commits.foldl Accounts.apply (.seed n) := by
  simp [tableOf, Change.apply, List.foldl_map]

theorem tableOf_writes (n : Nat) (commits : List (List Write)) :
    tableOf (.create n :: commits.map .write) = (Accounts.seed n).apply commits.flatten := by
  rw [tableOf_commits, Accounts.apply, List.foldl_flatten]
  rfl

theorem tableOf_of_prefix {earlier : List Change} (isPrefix : earlier <+: .create n :: commits.map .write) :
    tableOf earlier = ∅ ∨ ∃ before, before <+: commits ∧ tableOf earlier = (Accounts.seed n).apply before.flatten := by
  rcases List.prefix_cons_iff.mp isPrefix with rfl | ⟨rest, rfl, isPrefix'⟩
  · exact Or.inl rfl
  · obtain ⟨before, split, rfl⟩ := List.prefix_map_iff.mp isPrefix'
    exact Or.inr ⟨before, split, tableOf_writes n before⟩

namespace Accounts

/-- Writes have left balances on the accounts `0` to `n` that add up to zero over exact integers. -/
structure Conserves (n : Nat) (writes : List Write) (t : Accounts) : Prop where
  /-- A balance wraps around at every write, and is so the exact one modulo `2 ^ 64`. -/
  rows : t.entries = (List.range (n + 1)).map fun uid => (uid, .ofInt (exactBalance writes uid))
  exact : ∑ uid ∈ Finset.range (n + 1), exactBalance writes uid = 0
  fitting : (∀ uid ≤ n, Int64.minValue.toInt ≤ exactBalance writes uid ∧
    exactBalance writes uid ≤ Int64.maxValue.toInt) → (t.values.map Int64.toInt).sum = 0
  total : t.total = 0

end Accounts

theorem sum_moves {moves : List (List Write)} (areMoves : ∀ writes ∈ moves, IsMove n writes) :
    ∑ uid ∈ Finset.range (n + 1), exactBalance moves.flatten uid = 0 := by
  rw [sum_exactBalance]
  induction moves with
  | nil => rfl
  | cons writes rest ih =>
      obtain ⟨source, amount, inside, rfl⟩ := areMoves writes List.mem_cons_self
      have later := ih fun writes member => areMoves writes (List.mem_cons_of_mem _ member)
      rw [List.flatten_cons, List.map_append, List.sum_append, later]
      simp [moveWrites, inside, Nat.le_of_succ_le inside]

theorem conserves_moves {moves : List (List Write)} (areMoves : ∀ writes ∈ moves, IsMove n writes) :
    ((Accounts.seed n).apply moves.flatten).Conserves n moves.flatten where
  rows := Accounts.entries_apply_seed n _
  exact := sum_moves areMoves
  fitting fits := (Accounts.sum_values_of_fits fits).trans (sum_moves areMoves)
  total := by rw [Accounts.total_apply_seed, sum_moves areMoves]; rfl

namespace Accounts

structure Balanced (n : Nat) (t : Accounts) : Prop where
  rows : ∀ uid, t.contains uid = decide (uid ≤ n)
  total : t.total = 0

theorem balanced_moves {moves : List (List Write)} (areMoves : ∀ writes ∈ moves, IsMove n writes) :
    Balanced n (tableOf (.create n :: moves.map .write)) := by
  rw [tableOf_writes]
  exact ⟨fun uid => (contains_apply _).trans contains_seed, (conserves_moves areMoves).total⟩

end Accounts

end LedgerDrill.Cluster
