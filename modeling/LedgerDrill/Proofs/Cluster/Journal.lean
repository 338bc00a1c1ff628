import LedgerDrill.Proofs.Cluster.Copies
import Mathlib.Algebra.BigOperators.Group.Finset.Piecewise

/-!
What each torn commit has applied. A journal notes with every change of the ledger which statement made it, so that
the changes of two commits can be told apart even where they alternate. Those of one commit are its first writes one
by one, and all of them just if it succeeds. If all do and move money only, what they left half done while they were
under way has gone at their end.
-/

namespace LedgerDrill.Cluster

variable {c : Cluster} {s : Session} {block : Block} {statement : Statement} {id : TransactionId} {answer : Answer}
variable {changes made : List Change} {done rest writes : List Write} {reply : Reply} {turn : SessionTurn}
variable {w : Waiting} {n : Nat}

/-! ## One session -/

/-- What a statement has changed that was answered. If it commits these are its first writes one by one, and they
are all of them where the commit succeeded and nowhere else. -/
structure Applies (block : Block) (statement : Statement) (answer : Answer) (made : List Change) : Prop where
  commit : ∀ writes reply, Commits block statement writes reply → ∃ done rest, writes = done ++ rest ∧
    made = (Change.write done).pieces ∧ (writes ≠ [] → (answer = .ok reply ↔ rest = []))
  other : (∀ writes reply, ¬ Commits block statement writes reply) → made = block.changes statement answer

def Tallies (block : Block) (statement : Statement) (made : List Change) (turn : SessionTurn) : Prop :=
  match turn.next with
  | .answered answer =>
    Applies block statement answer made ∧ Rests (block.next statement answer) turn.session
  | .waiting _ w => ∃ done, made = (Change.write done).pieces ∧ Tears block turn.session statement done w

theorem Commits.unique {writes' : List Write} {reply' : Reply} (commits : Commits block statement writes reply)
    (commits' : Commits block statement writes' reply') : writes' = writes ∧ reply' = reply := by
  cases commits <;> cases commits' <;> exact ⟨rfl, rfl⟩

theorem applies_told (quiet : statement = .commit → block.changes statement answer = []) :
    Applies block statement answer (block.changes statement answer) := by
  refine ⟨fun writes reply commits => ?_, fun _ => rfl⟩
  cases commits with
  | block =>
      refine ⟨[], writes, rfl, quiet rfl, fun _ => ⟨fun succeeds => ?_, ?_⟩⟩
      · rw [succeeds] at quiet
        cases quiet rfl
      · rintro rfl
        contradiction
  | single uid delta =>
      by_cases succeeds : answer = .ok (.rows 1)
      · exact ⟨[⟨uid, delta⟩], [], rfl, by rw [succeeds]; rfl, by simp [succeeds]⟩
      · refine ⟨[], [⟨uid, delta⟩], rfl, ?_, by simp [succeeds]⟩
        unfold Block.changes
        split <;> simp_all [Change.pieces]

theorem Tells.tallies (tells : Tells block statement made turn) (quiet : statement = .commit → made = []) :
    Tallies block statement made turn := by
  obtain ⟨c, s, next⟩ := turn
  cases next with
  | answered answer =>
      obtain ⟨rfl, rests⟩ := tells
      exact ⟨applies_told quiet, rests⟩
  | waiting latency w =>
      obtain ⟨rfl, waits⟩ := tells
      exact ⟨[], rfl, .whole waits⟩

theorem Tells.length_le (tells : Tells block statement made turn) : made.length ≤ 1 := by
  obtain ⟨c, s, next⟩ := turn
  cases next with
  | waiting latency w => simp [tells.1]
  | answered answer =>
      rw [tells.1]
      unfold Block.changes
      split
      · split <;> simp
      · cases block <;> simp
      · simp
      · simp

theorem Commits.tallies_done (commits : Commits block statement writes reply) (c : Cluster) (s : Session)
    (id : TransactionId) :
    Tallies block statement (Change.write writes).pieces (finishCommit c s id reply (.ok ())) := by
  refine ⟨⟨fun writes' reply' commits' => ?_, fun none => absurd commits (none writes reply)⟩, ?_⟩
  · obtain ⟨rfl, rfl⟩ := commits.unique commits'
    exact ⟨writes', [], (List.append_nil writes').symm, rfl, by simp⟩
  · rw [commits.next_eq_none]
    exact rests_endCommit s

theorem Commits.tallies_failed (commits : Commits block statement (done ++ rest) reply) (left : rest ≠ [])
    (c : Cluster) (s : Session) (id : TransactionId) (e : StoreError) :
    Tallies block statement (Change.write done).pieces (finishCommit c s id reply (.error e)) := by
  refine ⟨⟨fun writes' reply' commits' => ?_, fun none => absurd commits (none _ reply)⟩, ?_⟩
  · obtain ⟨rfl, rfl⟩ := commits.unique commits'
    exact ⟨done, rest, rfl, rfl, by simp [left]⟩
  · rw [commits.next_eq_none]
    exact rests_endCommit _

theorem pieces_append_write (done : List Write) (write : Write) :
    (Change.write (done ++ [write])).pieces = (Change.write done).pieces ++ [.write [write]] := by
  simp [Change.pieces]

theorem tallies_applyTorn (commits : Commits block statement (done ++ rest) reply) :
    ∃ made, (Ledger.after ⟨c, changes⟩ (tornCalls c s id rest)).changes = changes ++ made ∧ made.length ≤ 1 ∧
      Tallies block statement ((Change.write done).pieces ++ made) (applyTorn c s id rest reply) := by
  cases rest with
  | nil =>
      rw [List.append_nil] at commits
      refine ⟨[], (List.append_nil changes).symm, Nat.zero_le 1, ?_⟩
      rw [List.append_nil]
      exact commits.tallies_done c s id
  | cons write more =>
      rcases applyTorn_cases c s id write more reply changes with ⟨c', e, same, fails⟩ | ⟨c', grown, goesOn⟩
      · rw [fails]
        refine ⟨[], same.trans (List.append_nil changes).symm, Nat.zero_le 1, ?_⟩
        rw [List.append_nil]
        exact commits.tallies_failed (List.cons_ne_nil write more) c' s id e
      · refine ⟨[.write [write]], grown, Nat.le_refl 1, ?_⟩
        rw [goesOn, ← pieces_append_write]
        cases more with
        | nil => exact commits.tallies_done c' s id
        | cons next more =>
            exact ⟨done ++ [write], rfl, .torn (by rwa [List.append_assoc, List.singleton_append])⟩

theorem tallies_applyWrites (torn : c.settings.torn = true) (commits : Commits block statement writes reply) :
    ∃ made, (Ledger.after ⟨c, changes⟩ (applyCalls c s id writes)).changes = changes ++ made ∧ made.length ≤ 1 ∧
      Tallies block statement made (applyWrites c s id writes reply) := by
  have whole : Commits block statement ([] ++ writes) reply := commits
  rw [applyCalls, applyWrites, if_pos torn, if_pos torn]
  exact tallies_applyTorn whole

theorem tallies_resume (torn : c.settings.torn = true) (tears : Tears block s statement done w) :
    ∃ made, (Ledger.after ⟨c, changes⟩ (w.calls c s)).changes = changes ++ made ∧ made.length ≤ 1 ∧
      Tallies block statement ((Change.write done).pieces ++ made) (resumeStatement w c s) := by
  cases tears with
  | torn commits => exact tallies_applyTorn commits
  | whole waits =>
      cases waits with
      | reaching rests isOpen notCommit able =>
          obtain ⟨made, same, tells⟩ := tells_execute rests isOpen notCommit able
          exact ⟨made, same, tells.length_le, tells.tallies fun isCommit => absurd isCommit notCommit⟩
      | applying commits => exact tallies_applyWrites torn commits
      | @preparing id writes reply commits =>
          rcases tells_preparing commits c s id changes with ⟨same, tells⟩ | ⟨c', prepared, calls, turn⟩
          · exact ⟨[], same.trans (List.append_nil changes).symm, Nat.zero_le 1, tells.tallies fun _ => rfl⟩
          · rw [calls, turn]
            exact tallies_applyWrites ((keeps_prepare prepared).settings ▸ torn) commits

theorem tallies_start (rests : Rests block s) (statement : Statement) (c : Cluster) :
    Tallies block statement [] (startStatement statement c s) :=
  (tells_start rests statement c).tallies fun _ => rfl

/-! ## Who made a change -/

def turnOf (line : Nat) (history : List Exchange) : Nat := history.countP (·.line == line)

/-- A change of the ledger with the line that has made it, and how many statements that line had answered before. -/
structure Entry where
  line : Nat
  turn : Nat
  change : Change
deriving DecidableEq

structure Journal where
  traffic : Traffic
  entries : List Entry := []

namespace Traffic

def gained (settings : Settings) (t : Traffic) (move : Move) : List Change :=
  ((t.step move).ledger settings).changes.drop (t.ledger settings).changes.length

end Traffic

namespace Journal
open Traffic

/-- Notes the changes that a line has made with the statement under way on it. -/
def note (j : Journal) (t : Traffic) (line : Nat) (made : List Change) : Journal where
  traffic := t
  entries := j.entries ++ made.map (⟨line, turnOf line j.traffic.history, ·⟩)

def step (settings : Settings) (j : Journal) : Move → Journal
  | .resume line => j.note (j.traffic.step (.resume line)) line (j.traffic.gained settings (.resume line))
  | move => { j with traffic := j.traffic.step move }

def run (settings : Settings) (moves : List Move) : Journal :=
  moves.foldl (step settings) { traffic := { cluster := new settings } }

def changesOf (j : Journal) (line turn : Nat) : List Change :=
  (j.entries.filter fun entry => entry.line = line ∧ entry.turn = turn).map (·.change)

variable {settings : Settings} {j : Journal} {move : Move} {i k : Nat}

theorem traffic_foldl (settings : Settings) (moves : List Move) (j : Journal) :
    (moves.foldl (step settings) j).traffic = moves.foldl Traffic.step j.traffic := by
  induction moves generalizing j with
  | nil => rfl
  | cons move rest ih => cases move <;> exact ih _

/-- The journal accounts for all changes, and for what every statement has made of them. -/
structure Booked (settings : Settings) (j : Journal) : Prop where
  accounted : j.traffic.Accounted settings
  all : j.entries.map (·.change) = (j.traffic.ledger settings).changes
  lines : ∀ (i : Nat) (line : Line), j.traffic.lines[i]? = some line → ∃ done,
    line.Torn (blockOf i j.traffic.history) done ∧
    j.changesOf i (turnOf i j.traffic.history) = (Change.write done).pieces ∧ (line.pending = none → done = [])
  unused : ∀ i, j.traffic.lines.length ≤ i → blockOf i j.traffic.history = none
  begun : ∀ entry ∈ j.entries,
    entry.line < j.traffic.lines.length ∧ entry.turn ≤ turnOf entry.line j.traffic.history
  past : ∀ later exchange earlier, j.traffic.history = later ++ exchange :: earlier →
    Applies (blockOf exchange.line earlier) exchange.statement exchange.answer
      (j.changesOf exchange.line (turnOf exchange.line earlier))

theorem changesOf_eq_nil (other : ∀ entry ∈ j.entries, ¬ (entry.line = i ∧ entry.turn = k)) :
    j.changesOf i k = [] := by
  rw [changesOf, List.filter_eq_nil_iff.mpr fun entry member => ?_, List.map_nil]
  simpa using other entry member

theorem turnOf_lt {history later earlier : List Exchange} {exchange : Exchange}
    (split : history = later ++ exchange :: earlier) :
    turnOf exchange.line earlier < turnOf exchange.line history := by
  have own : (exchange.line == exchange.line) = true := beq_self_eq_true _
  simp only [split, turnOf, List.countP_append, List.countP_cons, own, ↓reduceIte]
  omega

theorem turnOf_answers_ne {line other : Nat} (ne : line ≠ other) (statement : Statement) (turn : SessionTurn)
    (history : List Exchange) :
    turnOf other (Traffic.answers line statement turn ++ history) = turnOf other history := by
  obtain ⟨c, s, next⟩ := turn
  cases next <;> simp [Traffic.answers, turnOf, ne]

theorem changesOf_note (j : Journal) (t : Traffic) (line : Nat) (made : List Change) :
    (j.note t line made).changesOf line (turnOf line j.traffic.history) =
      j.changesOf line (turnOf line j.traffic.history) ++ made := by
  simp [changesOf, note, List.filter_map, Function.comp_def]

theorem changesOf_note_ne (j : Journal) (t : Traffic) {line : Nat} (made : List Change)
    (other : ¬ (line = i ∧ turnOf line j.traffic.history = k)) :
    (j.note t line made).changesOf i k = j.changesOf i k := by
  simp [changesOf, note, List.filter_map, Function.comp_def, other]

theorem all_note (booked : j.Booked settings) {t : Traffic} (line : Nat)
    (gained : (t.ledger settings).changes = (j.traffic.ledger settings).changes ++ made) :
    (j.note t line made).entries.map (·.change) = (t.ledger settings).changes := by
  rw [gained, ← booked.all]
  simp [note, Function.comp_def]

theorem begun_note (booked : j.Booked settings) (t : Traffic) {line : Nat} (bound : line < j.traffic.lines.length)
    (made : List Change) :
    ∀ entry ∈ (j.note t line made).entries,
      entry.line < j.traffic.lines.length ∧ entry.turn ≤ turnOf entry.line j.traffic.history := by
  intro entry member
  rcases List.mem_append.mp member with before | new
  · exact booked.begun entry before
  · obtain ⟨change, -, rfl⟩ := List.mem_map.mp new
    exact ⟨bound, Nat.le_refl _⟩

theorem past_note (booked : j.Booked settings) (t : Traffic) (line : Nat) (made : List Change) :
    ∀ later exchange earlier, j.traffic.history = later ++ exchange :: earlier →
      Applies (blockOf exchange.line earlier) exchange.statement exchange.answer
        ((j.note t line made).changesOf exchange.line (turnOf exchange.line earlier)) := by
  intro later exchange earlier split
  rw [changesOf_note_ne]
  · exact booked.past later exchange earlier split
  · rintro ⟨rfl, same⟩
    exact absurd (turnOf_lt split) (same ▸ Nat.lt_irrefl _)

theorem Booked.others {calls : List Call} (booked : j.Booked settings) {other : Nat} {line : Line} (apart : i ≠ other)
    (before : j.traffic.lines[other]? = some line) :
    ∃ done, line.Torn (blockOf other (Traffic.answers i statement turn ++ j.traffic.history)) done ∧
      (j.note (j.traffic.take i statement calls turn) i made).changesOf other
        (turnOf other (Traffic.answers i statement turn ++ j.traffic.history)) = (Change.write done).pieces ∧
      (line.pending = none → done = []) := by
  rw [blockOf_answers_ne apart, turnOf_answers_ne apart, changesOf_note_ne _ _ _ fun same => apart same.1]
  exact booked.lines other line before

theorem Booked.take {line : Line} {calls : List Call} (booked : j.Booked settings)
    (found : j.traffic.lines[i]? = some line) (accounted : (j.traffic.take i statement calls turn).Accounted settings)
    (gained : ((j.traffic.ledger settings).after calls).changes = (j.traffic.ledger settings).changes ++ made)
    (tallies : Tallies (blockOf i j.traffic.history) statement
      (j.changesOf i (turnOf i j.traffic.history) ++ made) turn) :
    (j.note (j.traffic.take i statement calls turn) i made).Booked settings := by
  have bound := (List.getElem?_eq_some_iff.mp found).1
  have all := all_note booked i ((congrArg Ledger.changes (ledger_take settings _ i statement calls turn)).trans gained)
  have begun := begun_note booked (j.traffic.take i statement calls turn) bound made
  have size : (j.traffic.take i statement calls turn).lines.length = j.traffic.lines.length := List.length_set
  obtain ⟨c, s, next⟩ := turn
  cases next with
  | waiting latency w =>
      obtain ⟨done, same, tears⟩ := tallies
      refine ⟨accounted, all, ?_, ?_, size ▸ begun, past_note booked _ i made⟩
      · intro other line' located
        rcases lines_take located with ⟨rfl, rfl⟩ | ⟨apart, before⟩
        · exact ⟨done, tears, (changesOf_note j _ i made).trans same, nofun⟩
        · exact booked.others apart before
      · intro other outside
        exact booked.unused other (size ▸ outside)
  | answered answer =>
      obtain ⟨applies, rests⟩ := tallies
      let told : List Exchange := ⟨i, statement, answer⟩ :: j.traffic.history
      have more : turnOf i told = turnOf i j.traffic.history + 1 := List.countP_cons_of_pos (beq_self_eq_true i)
      refine ⟨accounted, all, ?_, ?_, fun entry member => ?_, ?_⟩
      · intro other line' located
        rcases lines_take located with ⟨rfl, rfl⟩ | ⟨apart, before⟩
        · have next : blockOf i told = (blockOf i j.traffic.history).next statement answer := if_pos rfl
          refine ⟨[], next ▸ rests, changesOf_eq_nil fun entry member => ?_, fun _ => rfl⟩
          rintro ⟨rfl, late⟩
          have early := (begun entry member).2
          have known : entry.turn = turnOf entry.line told := late
          omega
        · exact booked.others apart before
      · intro other outside
        have beyond : j.traffic.lines.length ≤ other := size ▸ outside
        have apart : i ≠ other := by omega
        exact (if_neg apart).trans (booked.unused other beyond)
      · obtain ⟨inside, early⟩ := begun entry member
        exact ⟨size.symm ▸ inside, early.trans (List.sublist_cons_self _ _).countP_le⟩
      · intro later exchange earlier split
        change told = later ++ exchange :: earlier at split
        cases later with
        | nil =>
            obtain ⟨rfl, rfl⟩ := List.cons.inj split
            exact (changesOf_note j _ i made).symm ▸ applies
        | cons last later => exact past_note booked _ i made later exchange earlier (List.cons.inj split).2

theorem note_nil (j : Journal) (t : Traffic) (line : Nat) : j.note t line [] = { j with traffic := t } := by
  simp [note]

theorem Booked.beside (booked : j.Booked settings) {t : Traffic} (accounted : t.Accounted settings)
    (ledger : (t.ledger settings).changes = (j.traffic.ledger settings).changes)
    (history : t.history = j.traffic.history)
    (lines : ∀ (i : Nat) (line : Line), t.lines[i]? = some line → j.traffic.lines[i]? = some line ∨
      j.traffic.lines.length ≤ i ∧ line.pending = none ∧ Rests none line.session)
    (size : j.traffic.lines.length ≤ t.lines.length) : ({ j with traffic := t } : Journal).Booked settings := by
  refine ⟨accounted, booked.all.trans ledger.symm, ?_, ?_, ?_, ?_⟩
  · intro i line located
    simp only [history]
    rcases lines i line located with before | ⟨beyond, idle, rests⟩
    · exact booked.lines i line before
    · refine ⟨[], ?_, changesOf_eq_nil fun entry member => ?_, fun _ => rfl⟩
      · rw [booked.unused i beyond, Line.Torn, idle]
        exact rests
      · have inside := (booked.begun entry member).1
        omega
  · intro i outside
    simp only [history]
    exact booked.unused i (size.trans outside)
  · intro entry member
    simp only [history]
    obtain ⟨inside, early⟩ := booked.begun entry member
    exact ⟨Nat.lt_of_lt_of_le inside size, early⟩
  · intro later exchange earlier split
    exact booked.past later exchange earlier (history ▸ split)

theorem step_resume {t : Traffic} (steps : j.traffic.step (.resume i) = t)
    (changes : (t.ledger settings).changes = (j.traffic.ledger settings).changes ++ made) :
    j.step settings (.resume i) = j.note t i made := by
  rw [step, gained, steps, changes, List.drop_left]

theorem Booked.torn (booked : j.Booked settings) (torn : settings.torn = true) :
    j.traffic.cluster.settings.torn = true := by
  rw [← booked.accounted, ledger, Ledger.settings_run, torn]

theorem Booked.resumes (booked : j.Booked settings) (torn : settings.torn = true) (i : Nat) :
    j.step settings (.resume i) = j ∨
    ∃ s statement w made, j.traffic.lines[i]? = some ⟨s, some (statement, w)⟩ ∧
      j.traffic.step (.resume i) = j.traffic.take i statement (w.calls j.traffic.cluster s)
        (resumeStatement w j.traffic.cluster s) ∧
      j.step settings (.resume i) = j.note (j.traffic.step (.resume i)) i made ∧ made.length ≤ 1 ∧
      ((j.traffic.ledger settings).after (w.calls j.traffic.cluster s)).changes =
        (j.traffic.ledger settings).changes ++ made ∧
      Tallies (blockOf i j.traffic.history) statement (j.changesOf i (turnOf i j.traffic.history) ++ made)
        (resumeStatement w j.traffic.cluster s) := by
  have idle (stays : j.traffic.step (.resume i) = j.traffic) : j.step settings (.resume i) = j := by
    rw [step_resume stays (List.append_nil _).symm, note_nil]
  cases found : j.traffic.lines[i]? with
  | none => exact Or.inl (idle (by simp [Traffic.step, found]))
  | some line =>
      obtain ⟨s, _ | ⟨statement, w⟩⟩ := line
      · exact Or.inl (idle (by simp [Traffic.step, found]))
      · have takes : j.traffic.step (.resume i) = j.traffic.take i statement (w.calls j.traffic.cluster s)
            (resumeStatement w j.traffic.cluster s) := by simp [Traffic.step, found]
        obtain ⟨done, tears, same, -⟩ := booked.lines i _ found
        have went : ∃ made, ((j.traffic.ledger settings).after (w.calls j.traffic.cluster s)).changes =
            (j.traffic.ledger settings).changes ++ made ∧ made.length ≤ 1 ∧
            Tallies (blockOf i j.traffic.history) statement ((Change.write done).pieces ++ made)
              (resumeStatement w j.traffic.cluster s) := by
          rw [booked.accounted.ledger_eq]
          exact tallies_resume (booked.torn torn) tears
        obtain ⟨made, gained, few, tallies⟩ := went
        have notes := step_resume rfl ((congrArg (Ledger.changes ∘ ledger settings) takes).trans
          ((congrArg Ledger.changes (ledger_take settings _ i statement _ _)).trans gained))
        exact Or.inr ⟨s, statement, w, made, rfl, takes, notes, few, gained, same ▸ tallies⟩

theorem Booked.step (booked : j.Booked settings) (torn : settings.torn = true) (move : Move) :
    (j.step settings move).Booked settings := by
  have accounted := booked.accounted.step move
  have ledgerEq := booked.accounted.ledger_eq
  cases move with
  | fault fault =>
      refine booked.beside accounted ?_ rfl (fun i line located => Or.inl located) (Nat.le_refl _)
      rw [ledger_call settings _ _ (.fault fault) rfl, Ledger.call_of_silent rfl]
  | connect node =>
      refine booked.beside accounted ?_ rfl (fun i line located => ?_) ?_
      · rw [ledger_call settings _ _ (.openSession node) rfl, Ledger.call_of_silent rfl]
      · cases lines_step located with
        | stays before => exact Or.inl before
        | opens vacant accepted =>
            exact Or.inr ⟨List.getElem?_eq_none_iff.mp vacant, rfl, rests_accept accepted⟩
      · simp [Traffic.step]
  | issue i statement =>
      simp only [Journal.step, Traffic.step] at accounted ⊢
      split
      · next s found =>
          simp only [found] at accounted
          obtain ⟨done, rests, same, idle⟩ := booked.lines i _ found
          rw [← note_nil _ _ i]
          refine booked.take found accounted ?_ ?_
          · rw [ledgerEq, changes_startCalls, List.append_nil]
          · rw [same, idle rfl]
            exact tallies_start rests statement j.traffic.cluster
      · exact booked
  | resume i =>
      rcases booked.resumes torn i with stays | ⟨s, statement, w, made, found, takes, notes, -, gained, tallies⟩
      · rw [stays]
        exact booked
      · rw [notes, takes]
        exact booked.take found (takes ▸ accounted) gained tallies

theorem booked_run (torn : settings.torn = true) (moves : List Move) : (run settings moves).Booked settings := by
  have empty : ({ traffic := { cluster := new settings } } : Journal).Booked settings := by
    refine ⟨rfl, rfl, fun i line located => ?_, fun _ _ => rfl, nofun, fun later exchange earlier split => ?_⟩
    · simp at located
    · simp at split
  exact List.foldlRecOn (motive := Booked settings) moves (step settings) empty fun _ booked move _ =>
    booked.step torn move

end Journal

/-! ## Where a change is made -/

namespace Traffic

def Homed (t : Traffic) : Prop :=
  ∀ (i : Nat) (line : Line) (id : TransactionId), t.lines[i]? = some line → line.id? = some id →
    id.node = line.session.node

theorem homed_run (settings : Settings) (moves : List Move) : (run settings moves).Homed := by
  refine List.foldlRecOn (motive := Homed) moves Traffic.step (fun i line id located => by simp at located) ?_
  intro t homed move _ i line id located carries
  cases lines_step located with
  | stays before => exact homed i line id before carries
  | opens => cases carries
  | @starts s statement before =>
      obtain ⟨latency, w, next, own⟩ := ofTurn_id? carries
      rw [session_ofTurn, (settled_start statement t.cluster s).node]
      exact (((names_start statement t.cluster s).next latency w id next own).resolve_left nofun).1
  | @resumes s statement w before =>
      obtain ⟨latency, w', next, own⟩ := ofTurn_id? carries
      rw [session_ofTurn, (settled_resume w t.cluster s).node]
      rcases (names_resume w t.cluster s).next latency w' id next own with same | ⟨here, -⟩
      · exact homed i _ id before same
      · exact here

theorem Homed.home {t : Traffic} (homed : t.Homed) {i : Nat}
    (found : t.lines[i]? = some ⟨s, some (statement, w)⟩) : w.home s = s.node := by
  cases w with
  | reaching => rfl
  | preparing id | applying id | tearing id => exact homed i _ id found rfl

end Traffic

/-! ## Transfers -/

/-- The writes move money between the accounts `0` to `n`, and make none. -/
def Transfers (n : Nat) (writes : List Write) : Prop :=
  (∀ write ∈ writes, write.uid ≤ n) ∧ (writes.map (·.delta)).sum = 0

def Change.gain (n : Nat) : Change → Int
  | .create _ => 0
  | .write writes => (writes.map fun write => if write.uid ≤ n then write.delta else 0).sum

theorem gain_pieces (n : Nat) (writes : List Write) :
    ((Change.write writes).pieces.map (Change.gain n)).sum = Change.gain n (.write writes) := by
  simp [Change.pieces, Change.gain, Function.comp_def]

theorem Transfers.gain (transfers : Transfers n writes) : Change.gain n (.write writes) = 0 := by
  rw [Change.gain, ← transfers.2]
  exact congrArg List.sum (List.map_congr_left fun write member => if_pos (transfers.1 write member))

theorem total_tableOf (n : Nat) (commits : List (List Write)) :
    (tableOf (.create n :: commits.map .write)).total =
      ((.create n :: commits.map .write : List Change).map (Change.gain n)).sum.bmod Int64.size := by
  have gains : ((.create n :: commits.map .write : List Change).map (Change.gain n)).sum =
      (commits.flatten.map fun write => if write.uid ≤ n then write.delta else 0).sum := by
    simp [List.map_flatten, List.sum_flatten, Change.gain, Function.comp_def]
  rw [tableOf_writes, Accounts.total_apply_seed, sum_exactBalance, gains]

/-- What a statement commits, and how it is answered if it succeeds. -/
def Block.commit? : Block → Statement → Option (List Write × Reply)
  | some writes, .commit => some (writes, .done)
  | none, .add uid delta => some ([⟨uid, delta⟩], .rows 1)
  | _, _ => none

theorem Commits.commit? (commits : Commits block statement writes reply) :
    block.commit? statement = some (writes, reply) := by
  cases commits <;> rfl

instance (n : Nat) (writes : List Write) : Decidable (Transfers n writes) := inferInstanceAs (Decidable (_ ∧ _))

def Transferred (n : Nat) (history : List Exchange) : Prop :=
  ∀ past ∈ history.tails, ∀ exchange ∈ past.head?,
    ∀ commit ∈ (blockOf exchange.line past.tail).commit? exchange.statement,
      Transfers n commit.1 ∧ exchange.answer = .ok commit.2

instance (n : Nat) (history : List Exchange) : Decidable (Transferred n history) :=
  inferInstanceAs (Decidable (∀ past ∈ history.tails, _))

theorem Transferred.commit {history later earlier : List Exchange} {exchange : Exchange}
    (transferred : Transferred n history) (split : history = later ++ exchange :: earlier)
    (commits : Commits (blockOf exchange.line earlier) exchange.statement writes reply) :
    Transfers n writes ∧ exchange.answer = .ok reply := by
  have past : exchange :: earlier ∈ history.tails := (List.mem_tails _ _).mpr ⟨later, split.symm⟩
  exact transferred _ past exchange rfl (writes, reply) commits.commit?

def Traffic.Still (t : Traffic) : Prop := ∀ line ∈ t.lines, line.id? = none

instance (t : Traffic) : Decidable t.Still := inferInstanceAs (Decidable (∀ line ∈ t.lines, line.id? = none))

theorem exists_exchange {history : List Exchange} {i k : Nat} (passed : k < turnOf i history) :
    ∃ later exchange earlier, history = later ++ exchange :: earlier ∧ exchange.line = i ∧ turnOf i earlier = k := by
  induction history with
  | nil => simp [turnOf] at passed
  | cons last history ih =>
      by_cases before : k < turnOf i history
      · obtain ⟨later, exchange, earlier, split, found⟩ := ih before
        exact ⟨last :: later, exchange, earlier, by rw [split]; rfl, found⟩
      · simp only [turnOf, List.countP_cons, beq_iff_eq] at passed before
        have own : last.line = i := by_contra fun other => by simp [other] at passed; omega
        rw [if_pos own] at passed
        refine ⟨[], last, history, rfl, own, ?_⟩
        rw [turnOf]
        omega

namespace Journal
open Traffic

theorem sum_by_statement (f : Change → Int) (statements : Finset (Nat × Nat)) (entries : List Entry)
    (among : ∀ entry ∈ entries, (entry.line, entry.turn) ∈ statements) :
    ∑ x ∈ statements, (((entries.filter fun entry => entry.line = x.1 ∧ entry.turn = x.2).map (·.change)).map f).sum =
      (entries.map fun entry => f entry.change).sum := by
  induction entries with
  | nil => simp
  | cons entry rest ih =>
      have here : (entry.line, entry.turn) ∈ statements := among entry List.mem_cons_self
      have later := ih fun other member => among other (List.mem_cons_of_mem _ member)
      have own : ∑ x ∈ statements, (if (entry.line, entry.turn) = x then f entry.change else 0) = f entry.change := by
        simp [here]
      rw [List.map_cons, List.sum_cons, ← later, ← own, ← Finset.sum_add_distrib]
      refine Finset.sum_congr rfl fun x _ => ?_
      by_cases same : (entry.line, entry.turn) = x
      · subst same
        simp
      · have other : ¬ (entry.line = x.1 ∧ entry.turn = x.2) := fun both => same (Prod.ext both.1 both.2)
        simp [same, other]

variable {settings : Settings} {j : Journal} {i k : Nat}

theorem gain_told (notCommit : ∀ writes reply, ¬ Commits block statement writes reply) (answer : Answer) (n : Nat) :
    ((block.changes statement answer).map (Change.gain n)).sum = 0 := by
  unfold Block.changes
  split
  · next uid delta =>
      cases block with
      | none => exact absurd (.single uid delta) (notCommit _ _)
      | some writes => rfl
  · cases block with
    | none => rfl
    | some writes => exact absurd (.block writes) (notCommit _ _)
  · rfl
  · rfl

theorem Booked.changesOf_still (booked : j.Booked settings) (still : j.traffic.Still) (i : Nat) :
    j.changesOf i (turnOf i j.traffic.history) = [] := by
  cases located : j.traffic.lines[i]? with
  | none =>
      refine changesOf_eq_nil fun entry member => ?_
      rintro ⟨rfl, -⟩
      exact absurd (booked.begun entry member).1 (Nat.not_lt.mpr (List.getElem?_eq_none_iff.mp located))
  | some line =>
      obtain ⟨done, torn, same, idle⟩ := booked.lines i line located
      have quiet := still line (List.mem_of_getElem? located)
      obtain ⟨s, _ | ⟨statement, w⟩⟩ := line
      · rw [same, idle rfl]
        rfl
      · cases torn with
        | whole => exact same
        | torn => cases quiet

theorem Booked.gain_changesOf (booked : j.Booked settings) (transferred : Transferred n j.traffic.history)
    (still : j.traffic.Still) (i k : Nat) : ((j.changesOf i k).map (Change.gain n)).sum = 0 := by
  rcases Nat.lt_trichotomy k (turnOf i j.traffic.history) with passed | rfl | beyond
  · obtain ⟨later, exchange, earlier, split, rfl, rfl⟩ := exists_exchange passed
    have applies := booked.past later exchange earlier split
    by_cases isCommit : ∃ writes reply, Commits (blockOf exchange.line earlier) exchange.statement writes reply
    · obtain ⟨writes, reply, commits⟩ := isCommit
      obtain ⟨transfers, succeeds⟩ := transferred.commit split commits
      obtain ⟨done, rest, rfl, same, whole⟩ := applies.commit writes reply commits
      have all : rest = [] := by
        by_cases some : done ++ rest = []
        · exact (List.append_eq_nil_iff.mp some).2
        · exact (whole some).mp succeeds
      rw [all, List.append_nil] at transfers
      rw [same, gain_pieces, transfers.gain]
    · rw [applies.other fun writes reply commits => isCommit ⟨writes, reply, commits⟩]
      exact gain_told (fun writes reply commits => isCommit ⟨writes, reply, commits⟩) _ n
  · rw [booked.changesOf_still still]
    rfl
  · rw [changesOf_eq_nil]
    · rfl
    · rintro entry member ⟨rfl, rfl⟩
      exact absurd (booked.begun entry member).2 (Nat.not_le.mpr beyond)

theorem Booked.total (booked : j.Booked settings) (transferred : Transferred n j.traffic.history)
    (still : j.traffic.Still) {commits : List (List Write)}
    (seeded : (j.traffic.ledger settings).changes = .create n :: commits.map .write) :
    (j.traffic.ledger settings).table.total = 0 := by
  let statements := (j.entries.map fun entry => (entry.line, entry.turn)).toFinset
  have among : ∀ entry ∈ j.entries, (entry.line, entry.turn) ∈ statements := fun entry member =>
    List.mem_toFinset.mpr (List.mem_map.mpr ⟨entry, member, rfl⟩)
  have none : (j.entries.map fun entry => Change.gain n entry.change).sum = 0 := by
    rw [← sum_by_statement (Change.gain n) statements j.entries among]
    exact Finset.sum_eq_zero fun x _ => booked.gain_changesOf transferred still x.1 x.2
  rw [Ledger.table, seeded, total_tableOf, ← seeded, ← booked.all, List.map_map]
  exact congrArg (Int.bmod · Int64.size) none

theorem Booked.under_way (booked : j.Booked settings) {id : TransactionId}
    (found : j.traffic.lines[i]? = some ⟨s, some (statement, w)⟩) (committing : w.id? = some id) :
    ∃ done rest reply, Commits (blockOf i j.traffic.history) statement (done ++ rest) reply ∧
      j.changesOf i (turnOf i j.traffic.history) = (Change.write done).pieces := by
  obtain ⟨done, tears, same, -⟩ := booked.lines i _ found
  cases tears with
  | torn commits => exact ⟨done, _, _, commits, same⟩
  | whole waits =>
      cases waits with
      | reaching => cases committing
      | preparing commits | applying commits => exact ⟨[], _, _, commits, same⟩

theorem Booked.one (booked : j.Booked settings) (torn : settings.torn = true) (homed : j.traffic.Homed)
    (move : Move) :
    (j.step settings move).entries = j.entries ∨
    ∃ i s pending change, move = .resume i ∧ j.traffic.lines[i]? = some ⟨s, some pending⟩ ∧
      (j.step settings move).entries = j.entries ++ [⟨i, turnOf i j.traffic.history, change⟩] ∧
      ∀ peer ∈ j.traffic.cluster.reachable s.node, j.traffic.cluster.isFresh peer = true →
        (j.traffic.step move).cluster.isFresh peer = true := by
  cases move with
  | connect | issue | fault => exact Or.inl rfl
  | resume i =>
      rcases booked.resumes torn i with stays | ⟨s, statement, w, made, found, takes, notes, few, -, -⟩
      · exact Or.inl (by rw [stays])
      · rw [notes]
        cases made with
        | nil => exact Or.inl (List.append_nil _)
        | cons change more =>
            obtain rfl : more = [] := List.eq_nil_of_length_eq_zero (by simpa using few)
            have reached := (spreads_resume w j.traffic.cluster s).reached
            rw [homed.home found] at reached
            exact Or.inr ⟨i, s, _, change, rfl, found, rfl, takes ▸ reached⟩

/-- However sessions and faults take their turns, a torn commit has made changes of its first writes, each once and
in their order, and it succeeds just if these are all its writes. Every change is made in one step on all fresh
replicas that the session reaches, and fresh replicas are the same throughout. So if all commits are transfers and
succeed, the total is zero whenever none is under way. -/
theorem torn_commits_apply_prefixes (settings : Settings) (torn : settings.torn = true) (moves : List Move) :
    let j := run settings moves
    let t := Traffic.run settings moves
    let l := t.ledger settings
    j.traffic = t ∧ l.cluster = t.cluster ∧ j.entries.map (·.change) = l.changes ∧
    (∀ r ∈ t.cluster.replicas, r.stale = false → r.accounts = l.table) ∧
    (∀ later exchange earlier, t.history = later ++ exchange :: earlier →
      Applies (blockOf exchange.line earlier) exchange.statement exchange.answer
        (j.changesOf exchange.line (turnOf exchange.line earlier))) ∧
    (∀ i s statement w id, t.lines[i]? = some ⟨s, some (statement, w)⟩ → w.id? = some id →
      ∃ done rest reply, Commits (blockOf i t.history) statement (done ++ rest) reply ∧
        j.changesOf i (turnOf i t.history) = (Change.write done).pieces) ∧
    (∀ move, (j.step settings move).entries = j.entries ∨
      ∃ i s pending change, move = .resume i ∧ t.lines[i]? = some ⟨s, some pending⟩ ∧
        (j.step settings move).entries = j.entries ++ [⟨i, turnOf i t.history, change⟩] ∧
        ∀ peer ∈ t.cluster.reachable s.node, t.cluster.isFresh peer = true →
          (t.step move).cluster.isFresh peer = true) ∧
    ∀ (n : Nat) (commits : List (List Write)), l.changes = .create n :: commits.map .write →
      Transferred n t.history → t.Still →
      (∀ r ∈ t.cluster.replicas, r.stale = false → r.accounts.total = 0) ∧
      ∀ node epoch c balance, t.cluster.total node epoch = .ok (c, balance) → balance = 0 := by
  intro j t l
  have same : j.traffic = t := traffic_foldl settings moves _
  have booked : j.Booked settings := booked_run torn moves
  have homed : t.Homed := homed_run settings moves
  clear_value t
  subst same
  have faithful : l.Faithful := Ledger.faithful_run settings j.traffic.calls
  have cluster : l.cluster = j.traffic.cluster := booked.accounted
  have fresh : ∀ r ∈ j.traffic.cluster.replicas, r.stale = false → r.accounts = l.table := by
    intro r member isFresh
    obtain ⟨node, found⟩ := List.mem_iff_getElem?.mp member
    exact faithful.fresh node r (cluster ▸ found) isFresh
  refine ⟨rfl, cluster, booked.all, fresh, booked.past, ?_, booked.one torn homed, ?_⟩
  · intro i s statement w id
    exact booked.under_way
  · intro n commits seeded transferred still
    have zero : l.table.total = 0 := booked.total transferred still seeded
    refine ⟨fun r member isFresh => by rw [fresh r member isFresh, zero], fun node epoch c balance read => ?_⟩
    obtain ⟨served, rfl⟩ := total_eq_ok read
    have known : Ledger.Faithful ⟨j.traffic.cluster, l.changes⟩ := cluster ▸ faithful
    rw [known.accountsOf served]
    exact zero

def alternating : List Move :=
  let transfer (line source : Nat) : List Move :=
    [.issue line .begin, .resume line, .issue line (.add source (-5)), .resume line,
      .issue line (.add (source + 1) 5), .resume line, .issue line .commit, .resume line, .resume line]
  [.connect 0, .issue 0 (.create 4), .resume 0, .connect 1] ++ transfer 0 1 ++ transfer 1 2 ++
    [.resume 0, .resume 1]

theorem prefixes_of_alternating :
    (run { torn := true } alternating).entries = [⟨0, 0, .create 4⟩, ⟨0, 4, .write [⟨1, -5⟩]⟩,
      ⟨1, 3, .write [⟨2, -5⟩]⟩, ⟨0, 4, .write [⟨2, 5⟩]⟩, ⟨1, 3, .write [⟨3, 5⟩]⟩] ∧
    ((Traffic.run { torn := true } (alternating.take 22)).cluster.accountsOf 2).total = -10 ∧
    ∀ r ∈ (Traffic.run { torn := true } alternating).cluster.replicas, r.stale = false → r.accounts.total = 0 := by
  obtain ⟨-, -, -, -, -, -, -, conserved⟩ := torn_commits_apply_prefixes { torn := true } rfl alternating
  have known := conserved 4 [[⟨1, -5⟩], [⟨2, -5⟩], [⟨2, 5⟩], [⟨3, 5⟩]] (by decide) (by decide) (by decide)
  exact ⟨by decide +kernel, by decide, known.1⟩

end Journal

end LedgerDrill.Cluster
