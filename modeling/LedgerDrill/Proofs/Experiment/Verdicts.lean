import LedgerDrill.Proofs.Outcome.Handles
import LedgerDrill.Verdict

namespace LedgerDrill
open Outcome (Snapshot Key Pool Registry Aggregate)

/-! ## Checks -/

/-- The check passes if the condition holds, and else fails with a breach that is justified. -/
inductive Decides (holds : Prop) (justified : Breach → Prop) : Except Breach Unit → Prop
  | passed (met : holds) : Decides holds justified (.ok ())
  | failed {breach : Breach} (broken : ¬ holds) (reason : justified breach) : Decides holds justified (.error breach)

namespace Decides

variable {holds holds' : Prop} {justified justified' : Breach → Prop} {x y : Except Breach Unit}

theorem eq_ok_iff (decided : Decides holds justified x) : x = .ok () ↔ holds := by
  cases decided with
  | passed met => exact ⟨fun _ => met, fun _ => rfl⟩
  | failed broken => exact ⟨nofun, fun met => absurd met broken⟩

theorem of_eq_error (decided : Decides holds justified x) {breach : Breach} (failed : x = .error breach) :
    justified breach := by
  cases decided with
  | passed => cases failed
  | failed _ reason =>
      cases failed
      exact reason

theorem imp (decided : Decides holds justified x) (same : holds ↔ holds')
    (reasons : ∀ breach, justified breach → justified' breach) : Decides holds' justified' x := by
  cases decided with
  | passed met => exact .passed (same.mp met)
  | failed broken reason => exact .failed (fun met => broken (same.mpr met)) (reasons _ reason)

theorem andThen (first : Decides holds justified x) (second : Decides holds' justified' y) :
    Decides (holds ∧ holds') (fun breach => justified breach ∨ justified' breach) (x >>= fun _ => y) := by
  cases first with
  | failed broken reason => exact .failed (fun both => broken both.1) (Or.inl reason)
  | passed met => exact second.imp ⟨fun met' => ⟨met, met'⟩, And.right⟩ fun _ => Or.inr

theorem forM {nodes : List Nat} {f : Nat → Except Breach Unit} {holds : Nat → Prop} {justified : Nat → Breach → Prop}
    (each : ∀ node ∈ nodes, Decides (holds node) (justified node) (f node)) :
    Decides (∀ node ∈ nodes, holds node) (fun breach => ∃ node ∈ nodes, justified node breach) (nodes.forM f) := by
  induction nodes with
  | nil => exact .passed (fun _ => nofun)
  | cons node rest ih =>
      obtain ⟨here, later⟩ := List.forall_mem_cons.mp each
      refine (here.andThen (ih later)).imp List.forall_mem_cons.symm fun breach reason => ?_
      rcases reason with reason | ⟨other, listed, reason⟩
      · exact ⟨node, List.mem_cons_self, reason⟩
      · exact ⟨other, List.mem_cons_of_mem _ listed, reason⟩

end Decides

/-! ## Expectations -/

namespace Expectation

/-- The nodes that are able to do something are enough for the expectation. -/
def MetBy (nodes : Nat) (able : Nat → Prop) : Expectation → Prop
  | available => ∀ node < nodes, able node
  | unreachable down => ∀ node < nodes, node ∉ down → able node
  | eitherSide a b => (∀ node < nodes, node ≠ a → node ≠ b → able node) ∧ (able a ∨ able b)

def down : Expectation → List Nat
  | unreachable down => down
  | available | eitherSide .. => []

def named : Expectation → List Nat
  | available => []
  | unreachable down => down
  | eitherSide a b => [a, b]

/-- The node has to commit. The first of two nodes has to if the second does not. -/
def Demands (able : Nat → Prop) : Expectation → Nat → Prop
  | available, _ => True
  | unreachable down, node => node ∉ down
  | eitherSide a b, node => node ≠ a ∧ node ≠ b ∨ node = a ∧ ¬ able b

variable {e : Expectation} {nodes node : Nat} {able : Nat → Prop}

theorem Demands.not_metBy (demanded : e.Demands able node) (bound : node < nodes) (idle : ¬ able node) :
    ¬ e.MetBy nodes able := by
  intro met
  cases e with
  | available => exact idle (met node bound)
  | unreachable down => exact idle (met node bound demanded)
  | eitherSide a b =>
      obtain ⟨others, both⟩ := met
      rcases demanded with ⟨notA, notB⟩ | ⟨rfl, idle'⟩
      · exact idle (others node bound notA notB)
      · exact both.elim idle idle'

end Expectation

namespace Verdict

variable {s : Snapshot} {nodes a b : Nat} {listed : List Nat} {able : Nat → Prop}

def Tells (s : Snapshot) (nodes : Nat) (able : Nat → Prop) : Prop :=
  ∀ node < nodes, transferCommits s node = .ok true ∧ able node ∨ transferCommits s node = .ok false ∧ ¬ able node

theorem decides_commits (tells : Tells s nodes able) (inside : ∀ node ∈ listed, node < nodes) :
    Decides (∀ node ∈ listed, able node)
      (fun breach => ∃ node ∈ listed, ¬ able node ∧ breach = .noCommits node) (commits s listed) := by
  refine Decides.forM fun node member => ?_
  rcases tells node (inside node member) with ⟨answer, committed⟩ | ⟨answer, idle⟩
  · rw [answer]
    exact .passed committed
  · rw [answer]
    exact .failed idle ⟨idle, rfl⟩

theorem decides_noCommits (tells : Tells s nodes able) (inside : ∀ node ∈ listed, node < nodes) :
    Decides (∀ node ∈ listed, ¬ able node)
      (fun breach => ∃ node ∈ listed, able node ∧ breach = .unexpectedCommits node) (noCommits s listed) := by
  refine Decides.forM fun node member => ?_
  rcases tells node (inside node member) with ⟨answer, committed⟩ | ⟨answer, idle⟩
  · rw [answer]
    exact .failed (not_not_intro committed) ⟨committed, rfl⟩
  · rw [answer]
    exact .passed idle

theorem decides_anyCommits (tells : Tells s nodes able) (first : a < nodes) (second : b < nodes) :
    Decides (able a ∨ able b) (fun breach => ¬ able a ∧ ¬ able b ∧ breach = .noCommits a) (anyCommits s [a, b]) := by
  simp only [anyCommits, someCommits]
  rcases tells a first with ⟨answer, committed⟩ | ⟨answer, idle⟩
  · rw [answer]
    exact .passed (Or.inl committed)
  · rw [answer]
    rcases tells b second with ⟨answer', committed⟩ | ⟨answer', idle'⟩
    · rw [answer']
      exact .passed (Or.inr committed)
    · rw [answer']
      exact .failed (not_or.mpr ⟨idle, idle'⟩) ⟨idle, idle', rfl⟩

end Verdict

namespace Expectation
open Verdict

variable {e : Expectation} {s : Snapshot} {nodes : Nat} {able : Nat → Prop}

theorem bound_of_down (inside : ∀ node ∈ e.named, node < nodes) {node : Nat} (listed : node ∈ e.down) :
    node < nodes := by
  cases e with
  | available | eitherSide => cases listed
  | unreachable down => exact inside node listed

theorem decides_verifyDuring (tells : Tells s nodes able) (inside : ∀ node ∈ e.named, node < nodes) :
    Decides (e.MetBy nodes able ∧ ∀ node ∈ e.down, ¬ able node)
      (fun breach =>
        (∃ node < nodes, e.Demands able node ∧ ¬ able node ∧ breach = .noCommits node) ∨
          ∃ node ∈ e.down, able node ∧ breach = .unexpectedCommits node)
      (e.verifyDuring s nodes) := by
  have among {p : Nat → Bool} : ∀ node ∈ (List.range nodes).filter p, node < nodes :=
    fun node member => List.mem_range.mp (List.mem_filter.mp member).1
  cases e with
  | available =>
      refine (decides_commits tells fun node => List.mem_range.mp).imp ?_ ?_
      · simp [MetBy, down]
      · rintro breach ⟨node, member, idle, rfl⟩
        exact Or.inl ⟨node, List.mem_range.mp member, trivial, idle, rfl⟩
  | unreachable down =>
      have listed : ∀ node ∈ down, node < nodes := inside
      refine ((decides_commits tells among).andThen (decides_noCommits tells listed)).imp ?_ ?_
      · simp [MetBy, Expectation.down]
      · rintro breach (⟨node, member, idle, rfl⟩ | blamed)
        · obtain ⟨bound, outside⟩ := List.mem_filter.mp member
          have demanded : node ∉ down := by simpa using outside
          exact Or.inl ⟨node, List.mem_range.mp bound, demanded, idle, rfl⟩
        · exact Or.inr blamed
  | eitherSide a b =>
      have first : a < nodes := inside a (by simp [named])
      have second : b < nodes := inside b (by simp [named])
      refine ((decides_commits tells among).andThen (decides_anyCommits tells first second)).imp ?_ ?_
      · simp [MetBy, down]
      · rintro breach (⟨node, member, idle, rfl⟩ | ⟨idle, idle', rfl⟩)
        · obtain ⟨bound, outside⟩ := List.mem_filter.mp member
          exact Or.inl ⟨node, List.mem_range.mp bound, Or.inl (by simpa using outside), idle, rfl⟩
        · exact Or.inl ⟨a, first, Or.inr ⟨rfl, idle'⟩, idle, rfl⟩

theorem verifyDuring_eq_ok (judged : ∀ node < nodes, ∃ committed, transferCommits s node = .ok committed)
    (inside : ∀ node ∈ e.named, node < nodes) :
    e.verifyDuring s nodes = .ok () ↔
      e.MetBy nodes (fun node => transferCommits s node = .ok true) ∧
        ∀ node ∈ e.down, transferCommits s node = .ok false := by
  have tells : Tells s nodes fun node => transferCommits s node = .ok true := by
    intro node bound
    obtain ⟨committed, answer⟩ := judged node bound
    cases committed <;> simp [answer]
  have idle {node : Nat} (bound : node < nodes) :
      ¬ transferCommits s node = .ok true ↔ transferCommits s node = .ok false := by
    obtain ⟨committed, answer⟩ := judged node bound
    cases committed <;> simp [answer]
  refine (decides_verifyDuring tells inside).eq_ok_iff.trans (and_congr_right fun _ => ?_)
  exact forall₂_congr fun node member => idle (bound_of_down inside member)

end Expectation

/-! ## Snapshots of a registry -/

namespace Outcome

theorem Registry.sum_node (r : Registry) (node : Nat) (value : Aggregate → Nat) :
    r.sum (·.node == node) value =
      r.sum (· = ⟨node, .transfer⟩) value + r.sum (· = ⟨node, .sumTotal⟩) value := by
  unfold sum
  induction r.aggregates.entries with
  | nil => rfl
  | cons entry rest ih =>
      obtain ⟨⟨n, kind⟩, a⟩ := entry
      simp only [List.map_cons, List.sum_cons, ih]
      by_cases same : n = node
      · cases kind <;> simp [same] <;> omega
      · simp [same]

namespace Snapshot

/-- A snapshot that a registry makes, however its aggregates were used before. -/
def IsTaken (s : Snapshot) : Prop := ∃ moves now, s = ((Pool.run moves).takeSnapshot now).1

/-- Both loops of each of so many nodes have an entry. -/
def Covers (s : Snapshot) (nodes : Nat) : Prop := ∀ node < nodes, ∀ kind, (s.get? node kind).isSome = true

def Committed (s : Snapshot) (node : Nat) : Prop := 0 < s.count ⟨node, .transfer⟩ commit

def unrest (s : Snapshot) (node : Nat) : Nat := s.alarms ⟨node, .transfer⟩ + s.alarms ⟨node, .sumTotal⟩

variable {s : Snapshot} {node nodes : Nat}

theorem unrest_eq_zero_iff : s.unrest node = 0 ↔ ∀ kind, s.alarms ⟨node, kind⟩ = 0 := by
  rw [unrest, Nat.add_eq_zero_iff]
  constructor
  · rintro ⟨transfer, sumTotal⟩ (_ | _)
    · exact transfer
    · exact sumTotal
  · exact fun none => ⟨none .transfer, none .sumTotal⟩

theorem IsTaken.violations_eq (taken : s.IsTaken) (node : Nat) : s.violations node = s.unrest node := by
  obtain ⟨moves, now, rfl⟩ := taken
  rw [Pool.snapshot_eq (.run moves), unrest]
  have whole := (Meter.violations node).shown_peek (Pool.run moves).registry now
  have part (kind : LoopKind) := (Gauge.violations ⟨node, kind⟩).shown_peek (Pool.run moves).registry now
  exact whole.trans ((Registry.sum_node _ node _).trans (congrArg₂ (· + ·) (part .transfer) (part .sumTotal)).symm)

theorem IsTaken.hasCommits_iff (taken : s.IsTaken) {e : Entry} (found : s.get? node .transfer = some e) :
    e.hasCommits = true ↔ s.Committed node := by
  have counted : s.count ⟨node, .transfer⟩ commit = (e.outcomes.find? commit).getD 0 := by
    rw [count, found]
    rfl
  obtain ⟨moves, now, rfl⟩ := taken
  rw [Pool.get?_takeSnapshot_run] at found
  split at found
  · cases found
    rw [Committed, counted, Entry.hasCommits, ← SortedMap.isSome_find?, Aggregate.peek, Aggregate.find?_after]
    dsimp only
    split
    · simp
    · next some => simp [Nat.pos_of_ne_zero some]
  · cases found

theorem IsTaken.tells (taken : s.IsTaken) (covered : s.Covers nodes) : Verdict.Tells s nodes s.Committed := by
  intro node bound
  obtain ⟨e, found⟩ := Option.isSome_iff_exists.mp (covered node bound .transfer)
  have answer : Verdict.transferCommits s node = .ok e.hasCommits := by
    rw [Verdict.transferCommits, transfer?, found]
  rw [answer, ← taken.hasCommits_iff found]
  cases e.hasCommits <;> simp

theorem IsTaken.decides_isolation (taken : s.IsTaken) (covered : s.Covers nodes) :
    Decides (∀ node < nodes, ∀ kind, s.alarms ⟨node, kind⟩ = 0)
      (fun breach => ∃ node < nodes, 0 < s.unrest node ∧ breach = .isolation node (s.unrest node))
      (Verdict.isolation s (List.range nodes)) := by
  have each : ∀ node ∈ List.range nodes, Decides (s.unrest node = 0)
      (fun breach => 0 < s.unrest node ∧ breach = .isolation node (s.unrest node))
      (do
        if (s.sumTotal? node).isNone then throw (.missingNode node)
        if 0 < s.violations node then throw (.isolation node (s.violations node))) := by
    intro node member
    obtain ⟨e, found⟩ := Option.isSome_iff_exists.mp (covered node (List.mem_range.mp member) .sumTotal)
    have listed : (s.sumTotal? node).isNone = false := by
      rw [sumTotal?, found]
      rfl
    rw [listed, taken.violations_eq]
    by_cases quiet : s.unrest node = 0
    · rw [quiet]
      exact .passed rfl
    · have disturbed := Nat.pos_of_ne_zero quiet
      rw [if_pos disturbed]
      exact .failed quiet ⟨disturbed, rfl⟩
  refine (Decides.forM each).imp ?_ fun breach ⟨node, member, reason⟩ => ⟨node, List.mem_range.mp member, reason⟩
  simp only [List.mem_range, unrest_eq_zero_iff]

end Snapshot

end Outcome

/-! ## Verdicts -/

namespace Expectation

/-- What an experiment has to show. -/
structure IsMet (e : Expectation) (w : Windows) (nodes : Nat) : Prop where
  able : e.MetBy nodes w.during.Committed
  unable : ∀ node ∈ e.down, ¬ w.during.Committed node
  quiet : ∀ node < nodes, ∀ kind, w.during.alarms ⟨node, kind⟩ = 0
  recovered : ∀ node < nodes, w.after.Committed node
  calm : ∀ node < nodes, ∀ kind, w.after.alarms ⟨node, kind⟩ = 0

/-- What a verdict can say of a node of the experiment, with what it is blamed for. -/
inductive Breaks (e : Expectation) (w : Windows) (nodes : Nat) : Breach → Prop
  | idle {node : Nat} (bound : node < nodes) (demanded : e.Demands w.during.Committed node)
      (none : ¬ w.during.Committed node) : Breaks e w nodes (.noCommits node)
  | able {node : Nat} (bound : node < nodes) (down : node ∈ e.down) (committed : w.during.Committed node) :
      Breaks e w nodes (.unexpectedCommits node)
  | disturbed {node : Nat} (bound : node < nodes) (some : 0 < w.during.unrest node) :
      Breaks e w nodes (.isolation node (w.during.unrest node))
  | lost {node : Nat} (bound : node < nodes) (none : ¬ w.after.Committed node) : Breaks e w nodes (.noCommits node)
  | disturbedAfter {node : Nat} (bound : node < nodes) (some : 0 < w.after.unrest node) :
      Breaks e w nodes (.isolation node (w.after.unrest node))

variable {e : Expectation} {w : Windows} {nodes : Nat} {breach : Breach}

theorem Breaks.not_isMet (broken : e.Breaks w nodes breach) : ¬ e.IsMet w nodes := by
  intro met
  cases broken with
  | idle bound demanded none => exact demanded.not_metBy bound none met.able
  | able bound down committed => exact met.unable _ down committed
  | disturbed bound some => exact Nat.ne_of_gt some (Snapshot.unrest_eq_zero_iff.mpr (met.quiet _ bound))
  | lost bound none => exact none (met.recovered _ bound)
  | disturbedAfter bound some => exact Nat.ne_of_gt some (Snapshot.unrest_eq_zero_iff.mpr (met.calm _ bound))

theorem decides_verify (taken : w.during.IsTaken ∧ w.after.IsTaken)
    (covered : w.during.Covers nodes ∧ w.after.Covers nodes) (inside : ∀ node ∈ e.named, node < nodes) :
    Decides (e.IsMet w nodes) (e.Breaks w nodes) (e.verify w nodes) := by
  have failure := decides_verifyDuring (taken.1.tells covered.1) inside
  have quiet := taken.1.decides_isolation covered.1
  have recovery := Verdict.decides_commits (taken.2.tells covered.2) fun node => List.mem_range.mp
  have calm := taken.2.decides_isolation covered.2
  refine (failure.andThen (quiet.andThen (recovery.andThen calm))).imp ⟨?_, ?_⟩ ?_
  · rintro ⟨⟨able, unable⟩, quiet, recovered, calm⟩
    exact ⟨able, unable, quiet, fun node bound => recovered node (List.mem_range.mpr bound), calm⟩
  · rintro ⟨able, unable, quiet, recovered, calm⟩
    exact ⟨⟨able, unable⟩, quiet, fun node member => recovered node (List.mem_range.mp member), calm⟩
  · rintro breach ((⟨node, bound, demanded, none, rfl⟩ | ⟨node, down, committed, rfl⟩) |
      ⟨node, bound, some, rfl⟩ | ⟨node, member, none, rfl⟩ | ⟨node, bound, some, rfl⟩)
    · exact .idle bound demanded none
    · exact .able (bound_of_down inside down) down committed
    · exact .disturbed bound some
    · exact .lost (List.mem_range.mp member) none
    · exact .disturbedAfter bound some

/-- On snapshots that a registry made, with an entry for each loop of each node, a verdict passes exactly what meets
the expectation, and else says of one of the nodes what is wrong with it. -/
theorem verdicts_are_exact (e : Expectation) (w : Windows) (nodes : Nat)
    (taken : w.during.IsTaken ∧ w.after.IsTaken) (covered : w.during.Covers nodes ∧ w.after.Covers nodes)
    (inside : ∀ node ∈ e.named, node < nodes) :
    (e.verify w nodes = .ok () ↔ e.IsMet w nodes) ∧
    (∀ breach, e.verify w nodes = .error breach → e.Breaks w nodes breach) ∧
    ∀ breach, e.Breaks w nodes breach → ¬ e.IsMet w nodes := by
  have decided := decides_verify taken covered inside
  exact ⟨decided.eq_ok_iff, fun breach => decided.of_eq_error, fun breach => Breaks.not_isMet⟩

def drilled : List Pool.Move :=
  [.register ⟨2, .transfer⟩, .register ⟨0, .sumTotal⟩, .register ⟨1, .transfer⟩, .register ⟨1, .sumTotal⟩,
    .register ⟨2, .sumTotal⟩, .register ⟨0, .transfer⟩, .use 0 (.append Outcome.commit .zero),
    .use 2 (.finish 3 8 "commit" true), .use 3 .violate, .use 3 .violate, .use 5 (.append "no quorum" .zero),
    .use 1 (.append Outcome.commit .zero)]

theorem verdict_of_cutLink :
    let w : Windows := ⟨((Pool.run drilled).takeSnapshot 9).1, ((Pool.run drilled).takeSnapshot 9).1⟩
    (eitherSide 0 2).verify w 3 = .error (.isolation 1 3) ∧ (eitherSide 0 2).Breaks w 3 (.isolation 1 3) ∧
      available.Breaks w 3 (.noCommits 0) ∧ ¬ (unreachable [0]).IsMet w 3 := by
  intro w
  have taken : w.during.IsTaken ∧ w.after.IsTaken := ⟨⟨drilled, 9, rfl⟩, ⟨drilled, 9, rfl⟩⟩
  have transfers : ∀ node < 3, (w.during.get? node .transfer).isSome = true := by decide +kernel
  have totals : ∀ node < 3, (w.during.get? node .sumTotal).isSome = true := by decide +kernel
  have covers : w.during.Covers 3 := by
    rintro node bound (_ | _)
    · exact transfers node bound
    · exact totals node bound
  have told (e : Expectation) (inside : ∀ node ∈ e.named, node < 3) :=
    verdicts_are_exact e w 3 taken ⟨covers, covers⟩ inside
  have failed : (eitherSide 0 2).verify w 3 = .error (.isolation 1 3) := by decide +kernel
  refine ⟨failed, (told _ (by decide)).2.1 _ failed, (told _ (by decide)).2.1 _ (by decide +kernel), fun met => ?_⟩
  have passed := (told (unreachable [0]) (by decide)).1.mpr met
  revert passed
  decide +kernel

end Expectation

end LedgerDrill
