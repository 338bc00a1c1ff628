import LedgerDrill.Proofs.Cluster.Atomicity
import Mathlib.Algebra.BigOperators.Group.Finset.Basic
import Mathlib.Algebra.Order.Group.Multiset
import Mathlib.Tactic.Abel

namespace LedgerDrill.Cluster

variable {c : Cluster} {s : Session} {block : Block} {statement : Statement} {id : TransactionId}
variable {changes made : List Change} {done rest writes : List Write} {reply : Reply}
variable {paid : Multiset Change} {turn : SessionTurn} {w : Waiting}

/-- A change update by update. -/
def Change.pieces : Change → List Change
  | .write writes => writes.map fun write => .write [write]
  | .create n => [.create n]

/-- The pieces of changes in no order: those of two torn commits may alternate. -/
def pieces (changes : List Change) : Multiset Change := changes.flatMap Change.pieces

@[simp] theorem pieces_nil : pieces [] = 0 := rfl

theorem pieces_append (first second : List Change) : pieces (first ++ second) = pieces first + pieces second := by
  simp [pieces]

theorem pieces_write (done rest : List Write) :
    pieces [.write (done ++ rest)] = pieces [.write done] + pieces [.write rest] := by
  simp [pieces, Change.pieces]

theorem pieces_untorn (made : List Change) : pieces [.write []] + pieces made = pieces made := zero_add _

/-! ## One session -/

/-- A session with a statement under way, and the updates of a torn commit that were applied already. -/
inductive Tears (block : Block) (s : Session) (statement : Statement) : List Write → Waiting → Prop
  | whole {w : Waiting} (waits : Waits block s statement w) : Tears block s statement [] w
  | torn {id : TransactionId} {done rest : List Write} {reply : Reply}
      (commits : Commits block statement (done ++ rest) reply) :
      Tears block s statement done (.tearing id rest reply)

def Grants (block : Block) (statement : Statement) (paid : Multiset Change) (turn : SessionTurn) : Prop :=
  match turn.next with
  | .answered answer =>
    pieces (block.changes statement answer) ≤ paid ∧ Rests (block.next statement answer) turn.session
  | .waiting _ w => ∃ done, pieces [.write done] ≤ paid ∧ Tears block turn.session statement done w

theorem Tells.grants (tells : Tells block statement made turn) : Grants block statement (pieces made) turn := by
  obtain ⟨c, s, next⟩ := turn
  cases next with
  | answered answer =>
      obtain ⟨rfl, rests⟩ := tells
      exact ⟨le_refl _, rests⟩
  | waiting latency w =>
      obtain ⟨rfl, waits⟩ := tells
      exact ⟨[], le_refl _, .whole waits⟩

theorem Grants.mono {more : Multiset Change} (grants : Grants block statement paid turn) (le : paid ≤ more) :
    Grants block statement more turn := by
  obtain ⟨c, s, next⟩ := turn
  cases next with
  | answered answer => exact ⟨grants.1.trans le, grants.2⟩
  | waiting latency w =>
      obtain ⟨done, enough, tears⟩ := grants
      exact ⟨done, enough.trans le, tears⟩

theorem Commits.grants_done (commits : Commits block statement writes reply) (enough : pieces [.write writes] ≤ paid)
    (c : Cluster) (s : Session) (id : TransactionId) :
    Grants block statement paid (finishCommit c s id reply (.ok ())) := by
  refine ⟨commits.changes_ok ▸ enough, ?_⟩
  rw [commits.next_eq_none]
  exact rests_endCommit s

theorem Commits.grants_failed (commits : Commits block statement writes reply) (c : Cluster) (s : Session)
    (id : TransactionId) (e : StoreError) :
    Grants block statement paid (finishCommit c s id reply (.error e)) := by
  refine ⟨commits.changes_error e ▸ Multiset.zero_le paid, ?_⟩
  rw [commits.next_eq_none]
  exact rests_endCommit _

theorem applyTorn_cases (c : Cluster) (s : Session) (id : TransactionId) (write : Write) (rest : List Write)
    (reply : Reply) (changes : List Change) :
    (∃ c' e, (Ledger.after ⟨c, changes⟩ (tornCalls c s id (write :: rest))).changes = changes ∧
      applyTorn c s id (write :: rest) reply = finishCommit c' s id reply (.error e)) ∨
    ∃ c', (Ledger.after ⟨c, changes⟩ (tornCalls c s id (write :: rest))).changes = changes ++ [.write [write]] ∧
      applyTorn c s id (write :: rest) reply =
        if rest = [] then finishCommit c' s id reply (.ok ())
        else waitingAt c' s c'.settings.roundTrip (.tearing id rest reply) := by
  simp only [tornCalls, applyTorn, Ledger.after_cons, Ledger.call, Cluster.call]
  rcases commitPrepared_cases c s.epoch id [write] with ⟨_, h⟩ | ⟨_, h⟩ | ⟨_, _, _, h⟩ <;> rw [h]
  · exact Or.inl ⟨_, _, by rw [changes_finishCalls]; exact List.append_nil changes, rfl⟩
  · exact Or.inl ⟨_, _, by rw [changes_finishCalls]; exact List.append_nil changes, rfl⟩
  · exact Or.inr ⟨_, by cases rest <;> rfl, by cases rest <;> rfl⟩

theorem grants_applyTorn (commits : Commits block statement (done ++ rest) reply) :
    ∃ made, (Ledger.after ⟨c, changes⟩ (tornCalls c s id rest)).changes = changes ++ made ∧
      Grants block statement (pieces [.write done] + pieces made) (applyTorn c s id rest reply) := by
  cases rest with
  | nil =>
      refine ⟨[], (List.append_nil changes).symm, commits.grants_done ?_ c s id⟩
      rw [pieces_write]
      exact le_refl _
  | cons write more =>
      rcases applyTorn_cases c s id write more reply changes with ⟨c', e, same, fails⟩ | ⟨c', grown, goes⟩
      · rw [fails]
        exact ⟨[], same.trans (List.append_nil changes).symm, commits.grants_failed c' s id e⟩
      · refine ⟨[.write [write]], grown, ?_⟩
        rw [goes, ← pieces_write]
        cases more with
        | nil => exact commits.grants_done (le_refl _) c' s id
        | cons next more =>
            exact ⟨done ++ [write], le_refl _, .torn (by rwa [List.append_assoc, List.singleton_append])⟩

theorem grants_applyWrites (commits : Commits block statement writes reply) :
    ∃ made, (Ledger.after ⟨c, changes⟩ (applyCalls c s id writes)).changes = changes ++ made ∧
      Grants block statement (pieces made) (applyWrites c s id writes reply) := by
  cases torn : c.settings.torn with
  | true =>
      have whole : Commits block statement ([] ++ writes) reply := commits
      obtain ⟨made, same, grants⟩ := grants_applyTorn whole
      rw [applyCalls, applyWrites, if_pos torn, if_pos torn]
      exact ⟨made, same, pieces_untorn made ▸ grants⟩
  | false =>
      obtain ⟨made, same, tells⟩ := tells_applyWrites torn commits
      exact ⟨made, same, tells.grants⟩

theorem grants_resume (tears : Tears block s statement done w) :
    ∃ made, (Ledger.after ⟨c, changes⟩ (w.calls c s)).changes = changes ++ made ∧
      Grants block statement (pieces [.write done] + pieces made) (resumeStatement w c s) := by
  cases tears with
  | torn commits => exact grants_applyTorn commits
  | whole waits =>
      simp only [pieces_untorn]
      cases waits with
      | reaching rests isOpen notCommit able =>
          obtain ⟨made, same, tells⟩ := tells_execute rests isOpen notCommit able
          exact ⟨made, same, tells.grants⟩
      | applying commits => exact grants_applyWrites commits
      | @preparing id writes reply commits =>
          rcases tells_preparing commits c s id changes with ⟨same, tells⟩ | ⟨c', -, calls, turn⟩
          · exact ⟨[], same.trans (List.append_nil changes).symm, tells.grants⟩
          · rw [calls, turn]
            exact grants_applyWrites commits

/-! ## All sessions -/

/-- What a session was told leaves open what it does, given the updates that a torn commit of it has applied. -/
def Line.Torn (block : Block) (done : List Write) (line : Line) : Prop :=
  match line.pending with
  | none => Rests block line.session
  | some (statement, w) => Tears block line.session statement done w

theorem Grants.line (grants : Grants block statement paid turn) (line : Nat) (history : List Exchange)
    (known : blockOf line history = block) :
    let told := Traffic.answers line statement turn ++ history
    ∃ done, (Line.ofTurn statement turn).Torn (blockOf line told) done ∧
      pieces (effects told) + pieces [.write done] ≤ pieces (effects history) + paid := by
  obtain ⟨c, s, next⟩ := turn
  cases next with
  | answered answer =>
      obtain ⟨enough, rests⟩ := grants
      refine ⟨[], ?_, ?_⟩
      · simp only [Traffic.answers, List.singleton_append, blockOf, ↓reduceIte, known]
        exact rests
      · simp only [Traffic.answers, List.singleton_append, effects, known, pieces_append]
        exact (add_zero _).trans_le (add_le_add_right enough _)
  | waiting latency w =>
      obtain ⟨done, enough, tears⟩ := grants
      refine ⟨done, ?_, add_le_add_right enough _⟩
      simp only [Traffic.answers, List.nil_append, known]
      exact tears

namespace Traffic
open Finset

/-- The ledger has a piece for each update that sessions were told to have succeeded, and more for each that a
torn commit under way has applied. -/
structure Covered (settings : Settings) (done : Nat → List Write) (t : Traffic) : Prop where
  accounted : t.Accounted settings
  lines : ∀ (i : Nat) (line : Line), t.lines[i]? = some line → line.Torn (blockOf i t.history) (done i)
  unused : ∀ i, t.lines.length ≤ i → blockOf i t.history = none ∧ done i = []
  paid : pieces (effects t.history) + ∑ i ∈ range t.lines.length, pieces [.write (done i)] ≤
    pieces (t.ledger settings).changes

variable {settings : Settings} {t : Traffic} {done : Nat → List Write}

theorem Covered.take {i : Nat} {line : Line} {calls : List Call} (covered : t.Covered settings done)
    (found : t.lines[i]? = some line) (accounted : (t.take i statement calls turn).Accounted settings)
    (granted : ∃ made, ((t.ledger settings).after calls).changes = (t.ledger settings).changes ++ made ∧
      Grants (blockOf i t.history) statement (pieces [.write (done i)] + pieces made) turn) :
    ∃ done', (t.take i statement calls turn).Covered settings done' := by
  obtain ⟨made, changes, grants⟩ := granted
  obtain ⟨left, torn, enough⟩ := grants.line i t.history rfl
  have bound := (List.getElem?_eq_some_iff.mp found).1
  have inside : i ∈ range t.lines.length := mem_range.mpr bound
  refine ⟨Function.update done i left, accounted, ?_, ?_, ?_⟩
  · intro j other located
    rcases lines_take located with ⟨rfl, rfl⟩ | ⟨apart, before⟩
    · rw [Function.update_self]
      exact torn
    · rw [Function.update_of_ne (Ne.symm apart)]
      simp only [Traffic.take, blockOf_answers_ne apart]
      exact covered.lines j other before
  · intro j outside
    simp only [Traffic.take, List.length_set] at outside ⊢
    have apart : i ≠ j := by omega
    rw [blockOf_answers_ne apart, Function.update_of_ne (Ne.symm apart)]
    exact covered.unused j outside
  · have others : ∑ j ∈ (range t.lines.length).erase i, pieces [.write (Function.update done i left j)] =
        ∑ j ∈ (range t.lines.length).erase i, pieces [.write (done j)] :=
      sum_congr rfl fun j member => by rw [Function.update_of_ne (ne_of_mem_erase member)]
    have paid := covered.paid
    rw [ledger_take, changes, pieces_append]
    simp only [Traffic.take, List.length_set]
    rw [← add_sum_erase _ _ inside] at paid ⊢
    rw [others, Function.update_self, ← add_assoc]
    refine (add_le_add_left enough _).trans ?_
    refine le_trans (le_of_eq ?_) (add_le_add_left paid (pieces made))
    abel

theorem Covered.step (covered : t.Covered settings done) (move : Move) :
    ∃ done', (t.step move).Covered settings done' := by
  have accounted := covered.accounted.step move
  have ledgerEq := covered.accounted.ledger_eq
  cases move with
  | connect node =>
      refine ⟨done, accounted, ?_, ?_, ?_⟩
      · intro j line located
        cases lines_step located with
        | stays before => exact covered.lines j line before
        | opens vacant accepted =>
            rw [Traffic.step, (covered.unused j (List.getElem?_eq_none_iff.mp vacant)).1]
            exact rests_accept accepted
      · intro j outside
        simp only [Traffic.step, List.length_append] at outside
        exact covered.unused j (by omega)
      · rw [ledger_call settings t _ (.openSession node) rfl, Ledger.call_of_silent rfl]
        have unused : pieces [.write (done t.lines.length)] = 0 := by
          rw [(covered.unused t.lines.length (le_refl _)).2]
          rfl
        simp only [Traffic.step]
        split
        · rw [List.length_append, List.length_singleton, sum_range_succ, unused, add_zero]
          exact covered.paid
        · rw [List.append_nil]
          exact covered.paid
  | issue i statement =>
      simp only [Traffic.step] at accounted ⊢
      split
      · next session found =>
          simp only [found] at accounted
          have rests : Rests (blockOf i t.history) session := covered.lines i _ found
          refine covered.take found accounted ⟨[], ?_, ?_⟩
          · rw [ledgerEq, changes_startCalls, List.append_nil]
          · exact (tells_start rests statement t.cluster).grants.mono (Multiset.zero_le _)
      · exact ⟨done, covered⟩
  | resume i =>
      simp only [Traffic.step] at accounted ⊢
      split
      · next session statement w found =>
          simp only [found] at accounted
          have tears : Tears (blockOf i t.history) session statement (done i) w := covered.lines i _ found
          refine covered.take found accounted ?_
          rw [ledgerEq]
          exact grants_resume tears
      · exact ⟨done, covered⟩
  | fault fault =>
      refine ⟨done, accounted, covered.lines, covered.unused, ?_⟩
      rw [ledger_call settings t _ (.fault fault) rfl, Ledger.call_of_silent rfl]
      exact covered.paid

theorem covered_run (settings : Settings) (moves : List Move) : ∃ done, (run settings moves).Covered settings done := by
  have first : ({ cluster := new settings } : Traffic).Covered settings fun _ => [] := by
    refine ⟨rfl, fun i line found => ?_, fun _ _ => ⟨rfl, rfl⟩, ?_⟩
    · cases found
    · exact Multiset.zero_le _
  exact List.foldlRecOn (motive := fun t => ∃ done, t.Covered settings done) moves Traffic.step ⟨_, first⟩
    fun _ ⟨_, covered⟩ move _ => covered.step move

/-- Torn or not, everything that sessions were told to have succeeded is in the ledger. -/
theorem effects_covered (settings : Settings) (moves : List Move) :
    let t := run settings moves
    pieces (effects t.history) ≤ pieces (t.ledger settings).changes := by
  obtain ⟨done, covered⟩ := covered_run settings moves
  exact (Multiset.le_add_right _ _).trans covered.paid

example :
    let t := run { torn := true } [.connect 0, .issue 0 (.create 2), .resume 0, .issue 0 .begin, .resume 0,
      .issue 0 (.add 1 (-5)), .resume 0, .issue 0 (.add 2 5), .resume 0, .issue 0 .commit, .resume 0, .resume 0,
      .resume 0]
    (t.ledger { torn := true }).changes = [.create 2, .write [⟨1, -5⟩], .write [⟨2, 5⟩]] ∧
      effects t.history = [.create 2, .write [⟨1, -5⟩, ⟨2, 5⟩]] := by
  decide

end Traffic

end LedgerDrill.Cluster
