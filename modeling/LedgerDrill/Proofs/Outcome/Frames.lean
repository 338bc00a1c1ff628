import LedgerDrill.Outcome.Frame
import LedgerDrill.Proofs.Duration
import LedgerDrill.Proofs.Json.Reading
import LedgerDrill.Proofs.SortedMap

namespace LedgerDrill
open Json (Ends Gives gives_ok)

theorem Duration.gives_read (d : Duration) (rest : List Char) :
    Gives (Duration.read (d.write ++ rest)) True (d, rest) := by
  apply gives_ok
  rw [Duration.read, Duration.write, Json.readStringAs_writeString, Duration.ofText?_toText]
  rfl

theorem LoopKind.gives_read (kind : LoopKind) (rest : List Char) :
    Gives (LoopKind.read (kind.write ++ rest)) True (kind, rest) := by
  apply gives_ok
  cases kind <;> rfl

namespace SortedMap

variable {κ ν : Type} [Ord κ] [Std.TransOrd κ]

theorem alterEntries_of_forall_lt {key : κ} {entries : List (κ × ν)}
    (below : ∀ entry ∈ entries, compare entry.1 key = .lt) (f : Option ν → ν) :
    alterEntries key f entries = entries ++ [(key, f none)] := by
  induction entries with
  | nil => rfl
  | cons head rest ih =>
      have after : compare key head.1 = .gt := Std.OrientedCmp.gt_of_lt (below head List.mem_cons_self)
      rw [alterEntries, after, List.cons_append]
      exact congrArg _ (ih fun entry member => below entry (List.mem_cons_of_mem _ member))

theorem foldl_insert {entries : List (κ × ν)} {start m : SortedMap κ ν}
    (same : start.entries ++ entries = m.entries) :
    entries.foldl (fun m entry => m.insert entry.1 entry.2) start = m := by
  induction entries generalizing start with
  | nil =>
      rw [List.append_nil] at same
      cases start
      cases m
      cases same
      rfl
  | cons entry rest ih =>
      have ascending := m.ascending
      rw [← same, List.pairwise_append] at ascending
      obtain ⟨-, -, below⟩ := ascending
      apply ih
      have last : (start.insert entry.1 entry.2).entries = start.entries ++ [entry] :=
        alterEntries_of_forall_lt (fun other member => below other member entry List.mem_cons_self) _
      rw [last, List.append_assoc, List.singleton_append, same]

end SortedMap

namespace Outcome

/-! ## Counts -/

def Counts.Fits (counts : Counts) : Prop := ∀ item ∈ counts.entries, item.2 < wordBound

def Counts.readMember : Json.Member Counts := fun seen key text => do
  let (count, rest) ← Json.readNatural wordBound "u64" (← Json.readColon text)
  return (seen.insert key count, rest)

theorem Counts.gives_read (counts : Counts) (rest : List Char) :
    Gives (Counts.read (counts.write ++ rest)) counts.Fits (counts, rest) := by
  have each (seen : Counts) (item : String × Nat) (rest : List Char) (ends : Ends rest) :
      Gives (Counts.readMember seen item.1 (':' :: (Text.decimal item.2 ++ rest)))
        (item.2 < wordBound) (seen.insert item.1 item.2, rest) :=
    (Json.gives_readNatural "u64" item.2 ends).map fun read => (seen.insert item.1 read.1, read.2)
  have rebuilt : counts.entries.foldl (fun m item => m.insert item.1 item.2) ∅ = counts :=
    SortedMap.foldl_insert (List.nil_append _)
  have all := Json.gives_readObject each counts.entries ∅ rest
  rw [rebuilt] at all
  have opened : counts.write ++ rest = '\x7b' :: ([','].intercalate (counts.entries.map fun item =>
      Json.writeMember item.1 (Text.decimal item.2)) ++ '\x7d' :: rest) := by
    rw [Counts.write, Json.writeObject, Json.writeBetween, List.append_assoc]
    rfl
  rw [opened]
  exact all

/-! ## Entries -/

namespace Entry

structure Fits (e : Entry) : Prop where
  node : e.node < wordBound
  violations : e.violations < wordBound
  outcomes : e.outcomes.Fits

theorem gives_readRunning (running : Option Duration) (rest : List Char) :
    Gives (readRunning (running.elim "null".toList Duration.write ++ rest)) True (running, rest) := by
  cases running with
  | none => exact gives_ok rfl
  | some d => exact ((Duration.gives_read d rest).map fun read => (some read.1, read.2))

theorem gives_field {α : Type} {read : Json.Reader α} {value rest : List Char} {a : α} {p : Prop}
    (gives : Gives (read (value ++ rest)) p (a, rest)) (name : String) (put : Option α → Partial) :
    Gives (do
        let (given, rest) ← readOnce name none read (':' :: (value ++ rest))
        return (put given, rest))
      p (put (some a), rest) :=
  (gives.map fun read => (some read.1, read.2)).map fun read => (put read.1, read.2)

theorem gives_members (e : Entry) (rest : List Char) :
    Gives (Json.readObject readMember {} ([','].intercalate
        [Json.writeMember "node" (Text.decimal e.node),
         Json.writeMember "kind" e.kind.write,
         Json.writeMember "running_latency" (e.running.elim "null".toList Duration.write),
         Json.writeMember "max_latency" e.longest.write,
         Json.writeMember "violations" (Text.decimal e.violations),
         Json.writeMember "outcomes" e.outcomes.write] ++ '\x7d' :: rest))
      e.Fits
      (⟨some e.node, some e.kind, some e.running, some e.longest, some e.violations, some e.outcomes⟩, rest) := by
  let atNode : Partial := { node := some e.node }
  let atKind : Partial := { atNode with kind := some e.kind }
  let atRunning : Partial := { atKind with running := some e.running }
  let atLongest : Partial := { atRunning with longest := some e.longest }
  let atViolations : Partial := { atLongest with violations := some e.violations }
  let full : Partial := { atViolations with outcomes := some e.outcomes }
  have node (rest : List Char) (ends : Ends rest) :
      Gives (readMember {} "node" (':' :: (Text.decimal e.node ++ rest))) (e.node < wordBound) (atNode, rest) :=
    gives_field (Json.gives_readNatural "usize" e.node ends) "node" fun node => { node }
  have kind (rest : List Char) (_ : Ends rest) :
      Gives (readMember atNode "kind" (':' :: (e.kind.write ++ rest))) True (atKind, rest) :=
    gives_field (e.kind.gives_read rest) "kind" fun kind => { atNode with kind }
  have running (rest : List Char) (_ : Ends rest) :
      Gives (readMember atKind "running_latency"
        (':' :: (e.running.elim "null".toList Duration.write ++ rest))) True (atRunning, rest) :=
    gives_field (gives_readRunning e.running rest) "running_latency" fun running => { atKind with running }
  have longest (rest : List Char) (_ : Ends rest) :
      Gives (readMember atRunning "max_latency" (':' :: (e.longest.write ++ rest))) True (atLongest, rest) :=
    gives_field (e.longest.gives_read rest) "max_latency" fun longest => { atRunning with longest }
  have violations (rest : List Char) (ends : Ends rest) :
      Gives (readMember atLongest "violations" (':' :: (Text.decimal e.violations ++ rest)))
        (e.violations < wordBound) (atViolations, rest) :=
    gives_field (Json.gives_readNatural "u64" e.violations ends) "violations"
      fun violations => { atLongest with violations }
  have outcomes (rest : List Char) (_ : Ends rest) :
      Gives (readMember atViolations "outcomes" (':' :: (e.outcomes.write ++ rest)))
        e.outcomes.Fits (full, rest) :=
    gives_field (e.outcomes.gives_read rest) "outcomes" fun outcomes => { atViolations with outcomes }
  have all := (((((Json.continues_nil.cons outcomes).cons violations).cons longest).cons running).cons
    kind).readObject node rest
  refine all.congr ⟨?_, ?_⟩
  · rintro ⟨node, -, -, -, violations, outcomes, -⟩
    exact ⟨node, violations, outcomes⟩
  · rintro ⟨node, violations, outcomes⟩
    exact ⟨node, trivial, trivial, trivial, violations, outcomes, trivial⟩

theorem gives_read (e : Entry) (rest : List Char) :
    Gives (Entry.read (e.write ++ rest)) e.Fits (e, rest) := by
  have members := (e.gives_members rest).bind (f := fun read => do return (← read.1.complete, read.2))
    (gives_ok (a := (e, rest)) rfl)
  rw [write, Json.writeObject, Json.writeBetween, List.append_assoc]
  exact members.congr (iff_of_eq (and_true _))

end Entry

/-! ## Snapshots -/

def Snapshot.Fits (s : Snapshot) : Prop := ∀ e ∈ s.entries, e.Fits

/-- The frame of a snapshot is read as this snapshot or refused. -/
theorem Snapshot.gives_frame (s : Snapshot) : Gives (Snapshot.ofFrame s.frame) s.Fits s := by
  have opens (e : Entry) : ∃ text, e.write = '\x7b' :: text := ⟨_, rfl⟩
  have list := Json.gives_readList opens (fun e rest _ => e.gives_read rest) s.entries []
  have document : Gives (Json.readDocument (Json.readList Entry.read) s.frame) (s.Fits ∧ True) s.entries := by
    rw [Json.readDocument, frame, String.toList_ofList, ← List.append_nil (Json.writeList _)]
    exact list.bind (gives_ok rfl)
  exact (document.map Snapshot.mk).congr (iff_of_eq (and_true _))

end Outcome

end LedgerDrill
