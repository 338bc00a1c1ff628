import LedgerDrill.Proofs.Cluster.Statements
import LedgerDrill.Proofs.Cluster.Traffic

namespace LedgerDrill.Cluster

/-- The updates that a session was told to have succeeded, while it has a transaction. -/
abbrev Block := Option (List Write)

namespace Block

variable {statement : Statement}

def next (block : Block) : Statement → Answer → Block
  | .begin, .ok _ => some []
  | .add uid delta, .ok (.rows 1) => block.map (· ++ [⟨uid, delta⟩])
  | .commit, _ | .rollback, _ => none
  | _, _ => block

def changes (block : Block) : Statement → Answer → List Change
  | .add uid delta, .ok (.rows 1) => if block.isNone then [.write [⟨uid, delta⟩]] else []
  | .commit, .ok _ => (block.map Change.write).toList
  | .create n, .ok _ => [.create n]
  | _, _ => []

theorem changes_error (block : Block) (statement : Statement) (e : StoreError) :
    block.changes statement (.error e) = [] := by
  cases statement <;> rfl

theorem next_error (block : Block) (other : statement ≠ .commit ∧ statement ≠ .rollback) (e : StoreError) :
    block.next statement (.error e) = block := by
  obtain ⟨notCommit, notRollback⟩ := other
  cases statement with
  | commit | rollback => contradiction
  | begin | add | total | create | digest | prepared => rfl

end Block

/-- The transaction that a session has after a history. -/
def blockOf (line : Nat) : List Exchange → Block
  | [] => none
  | exchange :: earlier =>
    if exchange.line = line then
      (blockOf line earlier).next exchange.statement exchange.answer
    else blockOf line earlier

/-- The changes that a history tells of, oldest first. -/
def effects : List Exchange → List Change
  | [] => []
  | exchange :: earlier =>
    effects earlier ++
      (blockOf exchange.line earlier).changes exchange.statement exchange.answer

variable {c : Cluster} {s : Session} {block : Block} {statement : Statement}
variable {changes : List Change} {e : StoreError}

/-! ## One session -/

def Rests (block : Block) (s : Session) : Prop :=
  s.closed = false →
    (s.status = .idle → block = none) ∧ (s.status = .inTransaction → block = some s.writes)

/-- What a commit under way will apply. -/
inductive Commits : Block → Statement → List Write → Reply → Prop
  | block (writes : List Write) : Commits (some writes) .commit writes .done
  | single (uid : Nat) (delta : Int) : Commits none (.add uid delta) [⟨uid, delta⟩] (.rows 1)

inductive Waits (block : Block) (s : Session) (statement : Statement) : Waiting → Prop
  | reaching (rests : Rests block s) (isOpen : s.closed = false) (notCommit : statement ≠ .commit)
      (able : statement = .rollback ∨ s.status ≠ .inError) :
      Waits block s statement (.reaching statement)
  | preparing {id : TransactionId} {writes : List Write} {reply : Reply}
      (commits : Commits block statement writes reply) :
      Waits block s statement (.preparing id writes reply)
  | applying {id : TransactionId} {writes : List Write} {reply : Reply}
      (commits : Commits block statement writes reply) :
      Waits block s statement (.applying id writes reply)

/-- A step of a statement that made some changes is told of rightly: it made none while the statement
goes on, and those of its answer at its end. -/
def Tells (block : Block) (statement : Statement) (made : List Change) (turn : SessionTurn) :
    Prop :=
  match turn.next with
  | .answered answer =>
    made = block.changes statement answer ∧ Rests (block.next statement answer) turn.session
  | .waiting _ w => made = [] ∧ Waits block turn.session statement w

theorem rests_fail (rests : Rests block s) (e : StoreError) : Rests block (s.fail e) := by
  unfold Session.fail
  split
  · exact fun isOpen => by simp at isOpen
  · exact fun isOpen => by simp at isOpen
  · split
    · exact fun _ => ⟨fun idle => by simp at idle, fun open' => by simp at open'⟩
    · exact rests

theorem rests_endCommit (s : Session) : Rests none s.endCommit := by
  intro isOpen
  unfold Session.endCommit at isOpen ⊢
  split
  · next closed => simp [closed] at isOpen
  · exact ⟨fun _ => rfl, fun status => by simp at status⟩

theorem Commits.next_eq_none {writes : List Write} {reply : Reply}
    (commits : Commits block statement writes reply) (answer : Answer) :
    block.next statement answer = none := by
  cases commits with
  | block => rfl
  | single uid delta => unfold Block.next; split <;> first | rfl | contradiction

theorem Commits.changes_ok {writes : List Write} {reply : Reply}
    (commits : Commits block statement writes reply) :
    block.changes statement (.ok reply) = [.write writes] := by
  cases commits <;> rfl

theorem Commits.changes_error {writes : List Write} {reply : Reply}
    (commits : Commits block statement writes reply) (e : StoreError) :
    block.changes statement (.error e) = [] := by
  cases commits <;> rfl

theorem changes_finishCalls (id : TransactionId) (result : Except StoreError Unit) :
    (Ledger.after ⟨c, changes⟩ (finishCalls id result)).changes = changes := by
  apply Ledger.changes_after_silent
  intro call member
  rw [mem_finishCalls member]
  rfl

theorem changes_startCalls (s : Session) (statement : Statement) :
    (Ledger.after ⟨c, changes⟩ (startCalls s statement)).changes = changes := by
  apply Ledger.changes_after_silent
  exact fun call member => Call.change?_of_isInquiry (isInquiry_startCalls member)

theorem changes_executeCalls (notCreate : ∀ n, statement ≠ .create n) :
    (Ledger.after ⟨c, changes⟩ (executeCalls c s statement)).changes = changes := by
  apply Ledger.changes_after_silent
  exact fun call member => Call.change?_of_isInquiry (isInquiry_executeCalls notCreate member)

theorem tells_applyWrites {id : TransactionId} {writes : List Write} {reply : Reply}
    (plain : c.settings.torn = false) (commits : Commits block statement writes reply) :
    ∃ made, (Ledger.after ⟨c, changes⟩ (applyCalls c s id writes)).changes = changes ++ made ∧
      Tells block statement made (applyWrites c s id writes reply) := by
  simp only [applyCalls, applyWrites, plain, Bool.false_eq_true, ↓reduceIte, Ledger.after_cons,
    Ledger.call, Cluster.call]
  rcases commitPrepared_cases c s.epoch id writes with ⟨_, h⟩ | ⟨_, h⟩ | ⟨_, _, _, h⟩ <;> rw [h]
  · refine ⟨[], ?_, (commits.changes_error _).symm, ?_⟩
    · rw [changes_finishCalls]; rfl
    · rw [commits.next_eq_none]; exact rests_endCommit _
  · refine ⟨[], ?_, (commits.changes_error _).symm, ?_⟩
    · rw [changes_finishCalls]; rfl
    · rw [commits.next_eq_none]; exact rests_endCommit _
  · refine ⟨[.write writes], ?_, commits.changes_ok.symm, ?_⟩
    · rw [changes_finishCalls]; rfl
    · rw [commits.next_eq_none]; exact rests_endCommit _

theorem tells_failed (rests : Rests block s) (other : statement ≠ .commit ∧ statement ≠ .rollback) (c : Cluster)
    (e : StoreError) : Tells block statement [] (failed c s e) := by
  refine ⟨(block.changes_error statement e).symm, ?_⟩
  rw [block.next_error other]
  exact rests_fail rests e

theorem ne_of_readsAccounts (reads : readsAccounts statement = true) :
    statement ≠ .commit ∧ statement ≠ .rollback := by
  constructor <;> rintro rfl <;> cases reads

theorem tells_reaching (rests : Rests block s) (isOpen : s.closed = false) (notCommit : statement ≠ .commit)
    (able : statement = .rollback ∨ s.status ≠ .inError) (notCreate : ∀ n, statement ≠ .create n) (c : Cluster) :
    Tells block statement [] (execute c s statement) := by
  have known := executes c s statement
  generalize execute c s statement = turn at known
  cases known with
  | refused reads => exact tells_failed rests (ne_of_readsAccounts reads) c _
  | lost => exact tells_failed rests (by simp) c _
  | misses | totals | digests | counts => exact ⟨rfl, rests⟩
  | begins => exact ⟨rfl, fun _ => ⟨nofun, fun _ => rfl⟩⟩
  | rollsBack => exact ⟨rfl, fun _ => ⟨fun _ => rfl, nofun⟩⟩
  | buffers _ _ inside =>
      obtain rfl := (rests isOpen).2 inside
      exact ⟨rfl, fun _ => ⟨fun idle => absurd (inside.symm.trans idle) nofun, fun _ => rfl⟩⟩
  | @commits _ uid delta _ _ outside =>
      -- An update outside of a transaction commits by itself.
      have idle : s.status = .idle := by
        cases status : s.status with
        | idle => rfl
        | inTransaction => exact absurd status outside
        | inError => exact absurd status (able.resolve_left nofun)
      obtain rfl := (rests isOpen).1 idle
      exact ⟨rfl, .preparing (.single uid delta)⟩
  | creates | offline => exact absurd rfl (notCreate _)
  | ends => exact absurd rfl notCommit

theorem tells_execute (rests : Rests block s) (isOpen : s.closed = false)
    (notCommit : statement ≠ .commit) (able : statement = .rollback ∨ s.status ≠ .inError) :
    ∃ made, (Ledger.after ⟨c, changes⟩ (executeCalls c s statement)).changes = changes ++ made ∧
      Tells block statement made (execute c s statement) := by
  by_cases creates : ∃ n, statement = .create n
  · obtain ⟨n, rfl⟩ := creates
    simp only [executeCalls, execute, Ledger.after_cons, Ledger.after_nil, Ledger.call,
      Cluster.call]
    cases c.createAccounts s.node s.epoch n with
    | error e => exact ⟨[], rfl, tells_failed rests (by simp) c e⟩
    | ok c' => exact ⟨[.create n], rfl, rfl, rests⟩
  · have notCreate (n : Nat) (same : statement = .create n) : False := creates ⟨n, same⟩
    have silent : (Ledger.after ⟨c, changes⟩ (executeCalls c s statement)).changes = changes :=
      changes_executeCalls notCreate
    exact ⟨[], silent.trans (List.append_nil changes).symm, tells_reaching rests isOpen notCommit able notCreate c⟩

theorem tells_preparing (commits : Commits block statement writes reply) (c : Cluster) (s : Session)
    (id : TransactionId) (changes : List Change) :
    ((Ledger.after ⟨c, changes⟩ (Waiting.calls c s (.preparing id writes reply))).changes = changes ∧
      Tells block statement [] (resumeStatement (.preparing id writes reply) c s)) ∨
    ∃ c', c.prepare s.epoch id = .ok c' ∧
      Ledger.after ⟨c, changes⟩ (Waiting.calls c s (.preparing id writes reply)) =
        Ledger.after ⟨c', changes⟩ (applyCalls c' s id writes) ∧
      resumeStatement (.preparing id writes reply) c s = applyWrites c' s id writes reply := by
  simp only [Waiting.calls, resumeStatement, Ledger.after_cons, Ledger.call, Cluster.call]
  cases h : c.prepare s.epoch id with
  | error e =>
      refine Or.inl ⟨List.append_nil changes, (commits.changes_error e).symm, ?_⟩
      rw [commits.next_eq_none]
      exact rests_endCommit _
  | ok c' =>
      simp only
      split
      · exact Or.inl ⟨List.append_nil changes, rfl, .applying commits⟩
      · refine Or.inr ⟨c', rfl, ?_, rfl⟩
        simp only [Option.isSome_some, Ledger.changesOf, Call.change?, Option.toList_none,
          ↓reduceIte, List.append_nil]

theorem tells_resume {w : Waiting} (plain : c.settings.torn = false)
    (waits : Waits block s statement w) :
    ∃ made, (Ledger.after ⟨c, changes⟩ (w.calls c s)).changes = changes ++ made ∧
      Tells block statement made (resumeStatement w c s) := by
  cases waits with
  | reaching rests isOpen notCommit able => exact tells_execute rests isOpen notCommit able
  | applying commits => exact tells_applyWrites plain commits
  | @preparing id writes reply commits =>
      rcases tells_preparing commits c s id changes with ⟨same, tells⟩ | ⟨c', prepared, calls, turn⟩
      · exact ⟨[], same.trans (List.append_nil changes).symm, tells⟩
      · rw [calls, turn]
        exact tells_applyWrites ((keeps_prepare prepared).settings ▸ plain) commits

theorem tells_start (rests : Rests block s) (statement : Statement) (c : Cluster) :
    Tells block statement [] (startStatement statement c s) := by
  have known := starts statement c s
  generalize startStatement statement c s = turn at known
  cases known with
  | closed isClosed =>
      exact ⟨(block.changes_error statement _).symm, fun isOpen => absurd (isClosed.symm.trans isOpen) nofun⟩
  | refused _ _ other =>
      refine ⟨(block.changes_error statement _).symm, ?_⟩
      rw [block.next_error other]
      exact rests
  | idle isOpen outside =>
      obtain rfl := (rests isOpen).1 outside
      exact ⟨rfl, rests⟩
  | gaveUp => exact ⟨rfl, fun _ => ⟨fun _ => rfl, nofun⟩⟩
  | commits isOpen inside =>
      obtain rfl := (rests isOpen).2 inside
      exact ⟨rfl, .preparing (.block s.writes)⟩
  | sends isOpen notCommit able => exact ⟨rfl, .reaching rests isOpen notCommit able⟩

/-! ## All sessions -/

def Line.Sound (block : Block) (line : Line) : Prop :=
  match line.pending with
  | none => Rests block line.session
  | some (statement, w) => Waits block line.session statement w

theorem Tells.line {made : List Change} {turn : SessionTurn}
    (tells : Tells block statement made turn) (line : Nat) (history : List Exchange)
    (known : blockOf line history = block) :
    (Line.ofTurn statement turn).Sound
      (blockOf line (Traffic.answers line statement turn ++ history)) := by
  obtain ⟨c, s, next⟩ := turn
  cases next with
  | answered answer =>
      simp only [Traffic.answers, List.singleton_append, blockOf, ↓reduceIte, known]
      exact tells.2
  | waiting latency w =>
      simp only [Traffic.answers, List.nil_append, known]
      exact tells.2

theorem Tells.effects {made : List Change} {turn : SessionTurn}
    (tells : Tells block statement made turn) (line : Nat) (history : List Exchange)
    (known : blockOf line history = block) :
    effects (Traffic.answers line statement turn ++ history) = effects history ++ made := by
  obtain ⟨c, s, next⟩ := turn
  cases next with
  | answered answer =>
      obtain ⟨rfl, _⟩ := tells
      simp [Traffic.answers, Cluster.effects, known]
  | waiting latency w =>
      obtain ⟨rfl, _⟩ := tells
      simp [Traffic.answers]

theorem blockOf_answers_ne {line other : Nat} (ne : line ≠ other) (statement : Statement)
    (turn : SessionTurn) (history : List Exchange) :
    blockOf other (Traffic.answers line statement turn ++ history) = blockOf other history := by
  obtain ⟨c, s, next⟩ := turn
  cases next <;> simp [Traffic.answers, blockOf, ne]

namespace Traffic

structure Sound (settings : Settings) (t : Traffic) : Prop where
  accounted : t.Accounted settings
  changes : (t.ledger settings).changes = effects t.history
  lines : ∀ (i : Nat) (line : Line), t.lines[i]? = some line → line.Sound (blockOf i t.history)
  unused : ∀ i, t.lines.length ≤ i → blockOf i t.history = none

variable {settings : Settings} {t : Traffic}

theorem Sound.plain (sound : t.Sound settings) (plain : settings.torn = false) :
    t.cluster.settings.torn = false := by
  rw [← sound.accounted, ledger, Ledger.settings_run, plain]

theorem Sound.take {i : Nat} {line : Line} {calls : List Call} {turn : SessionTurn}
    (sound : t.Sound settings) (found : t.lines[i]? = some line)
    (accounted : (t.take i statement calls turn).Accounted settings)
    (told : ∃ made, ((t.ledger settings).after calls).changes = effects t.history ++ made ∧
      Tells (blockOf i t.history) statement made turn) :
    (t.take i statement calls turn).Sound settings := by
  obtain ⟨made, changes, tells⟩ := told
  have bound := (List.getElem?_eq_some_iff.mp found).1
  refine ⟨accounted, ?_, ?_, ?_⟩
  · rw [ledger_take, changes]
    exact (tells.effects i t.history rfl).symm
  · intro j other located
    rcases lines_take located with ⟨rfl, rfl⟩ | ⟨apart, before⟩
    · exact tells.line i t.history rfl
    · simp only [Traffic.take, blockOf_answers_ne apart]
      exact sound.lines j other before
  · intro j outside
    simp only [Traffic.take, List.length_set] at outside ⊢
    rw [blockOf_answers_ne (by omega)]
    exact sound.unused j outside

theorem rests_accept {c : Cluster} {node : Nat} {s : Session}
    (accepted : (Store.accept c node).2 = .ok s) : Rests none s := by
  rcases accept_cases c node with ⟨e, -, refused⟩ | ⟨epoch, opened⟩
  · rw [refused] at accepted
    contradiction
  · rw [opened] at accepted
    cases accepted
    exact fun _ => ⟨fun _ => rfl, fun h => (by cases h)⟩

theorem Sound.step (sound : t.Sound settings) (plain : settings.torn = false) (move : Move) :
    (t.step move).Sound settings := by
  have accounted := sound.accounted.step move
  have ledgerEq := sound.accounted.ledger_eq
  rw [sound.changes] at ledgerEq
  cases move with
  | connect node =>
      refine ⟨accounted, ?_, ?_, ?_⟩
      · rw [ledger_call settings t _ (.openSession node) rfl, Ledger.call_of_silent rfl]
        exact sound.changes
      · intro j line located
        cases lines_step located with
        | stays before => exact sound.lines j line before
        | opens vacant accepted =>
            rw [Traffic.step, sound.unused j (List.getElem?_eq_none_iff.mp vacant)]
            exact rests_accept accepted
      · intro j outside
        simp only [Traffic.step, List.length_append] at outside
        exact sound.unused j (by omega)
  | issue i statement =>
      simp only [Traffic.step] at accounted ⊢
      split
      · next session found =>
          simp only [found] at accounted
          have rests : Rests (blockOf i t.history) session := sound.lines i _ found
          refine sound.take found accounted ⟨[], ?_, tells_start rests statement t.cluster⟩
          rw [ledgerEq, changes_startCalls, List.append_nil]
      · exact sound
  | resume i =>
      simp only [Traffic.step] at accounted ⊢
      split
      · next session statement w found =>
          simp only [found] at accounted
          have waits : Waits (blockOf i t.history) session statement w := sound.lines i _ found
          refine sound.take found accounted ?_
          rw [ledgerEq]
          exact tells_resume (sound.plain plain) waits
      · exact sound
  | fault fault =>
      refine ⟨accounted, ?_, sound.lines, sound.unused⟩
      rw [ledger_call settings t _ (.fault fault) rfl, Ledger.call_of_silent rfl]
      exact sound.changes

theorem sound_run (plain : settings.torn = false) (moves : List Move) :
    (run settings moves).Sound settings := by
  refine List.foldlRecOn (motive := Sound settings) moves Traffic.step ?_ fun _ sound move _ =>
    sound.step plain move
  exact ⟨rfl, rfl, fun i line found => by simp at found, fun _ _ => rfl⟩

/-- However sessions and faults take their turns, the calls of the sessions have made exactly the
changes that their history tells of: each block of updates once and whole at the commit that succeeded,
each update outside a transaction by itself, and nothing else. Fresh replicas hold their table. -/
theorem changes_are_effects (settings : Settings) (plain : settings.torn = false)
    (moves : List Move) :
    let t := run settings moves
    let l := Ledger.run settings t.calls
    l.cluster = t.cluster ∧ l.changes = effects t.history ∧
      ∀ r ∈ t.cluster.replicas, r.stale = false → r.accounts = tableOf (effects t.history) := by
  intro t l
  have sound : t.Sound settings := sound_run plain moves
  refine ⟨sound.accounted, sound.changes, ?_⟩
  intro r member fresh
  obtain ⟨node, found⟩ := List.mem_iff_getElem?.mp member
  rw [← sound.accounted] at found
  rw [← sound.changes]
  exact (Ledger.faithful_run settings t.calls).fresh node r found fresh

/-- One transfer that commits, an update outside a transaction, and a transfer that loses its majority
between the two phases of its commit. -/
def threeCommits : List Move :=
  [.connect 0, .issue 0 (.create 4), .resume 0,
    .issue 0 .begin, .resume 0, .issue 0 (.add 1 (-5)), .resume 0, .issue 0 (.add 2 5), .resume 0,
    .issue 0 .commit, .resume 0, .resume 0,
    .connect 1, .issue 1 (.add 3 7), .resume 1, .resume 1, .resume 1,
    .issue 0 .begin, .resume 0, .issue 0 (.add 1 (-2)), .resume 0, .issue 0 (.add 2 2), .resume 0,
    .issue 0 .commit, .resume 0, .fault (.isolate 0), .resume 0]

theorem effects_of_three_commits :
    let t := run {} threeCommits
    effects t.history = [.create 4, .write [⟨1, -5⟩, ⟨2, 5⟩], .write [⟨3, 7⟩]] ∧
      t.history.map (·.answer.toBool) = false :: List.replicate 9 true ∧
      (Ledger.run {} t.calls).changes = effects t.history := by
  intro t
  exact ⟨by decide, by decide, (changes_are_effects {} rfl threeCommits).2.1⟩

end Traffic

end LedgerDrill.Cluster
