import LedgerDrill.Config.Document
import LedgerDrill.Proofs.Duration
import LedgerDrill.Proofs.Json.Objects
import Mathlib.Data.List.Nodup

namespace LedgerDrill
open Json (AreBlanks Denotes Encloses IsValue Pair Reads Stops)

/-! ## Records -/

namespace Field

variable {α β : Type} {fields : List (Field α)} {offers : String → List Char → Prop} {merge : List String → α}
variable {given final : List String} {pairs : List Pair}

/-- Members of an object for a record of which some fields were given before: each known name at most once, with a
text that is offered for it, and values of any kind under other names. -/
inductive Gives (offers : String → List Char → Prop) (known : List String) :
    List String → List Pair → List String → Prop
  | nil {given : List String} : Gives offers known given [] given
  | field {given final : List String} {p : Pair} {pairs : List Pair} {name : String} (listed : name ∈ known)
      (fresh : name ∉ given) (spelled : Denotes p.name name.toList) (offered : offers name p.element.value)
      (later : Gives offers known (name :: given) pairs final) : Gives offers known given (p :: pairs) final
  | other {given final : List String} {p : Pair} {pairs : List Pair} {name : String} (unlisted : name ∉ known)
      (spelled : Denotes p.name name.toList) (isValue : IsValue p.element.value)
      (later : Gives offers known given pairs final) : Gives offers known given (p :: pairs) final

theorem reads_of {name : String} {reader : Json.Reader β} {text : List Char} {value : β}
    (reads : Reads reader text value) {set : α → β → α} {write : α → List Char} {record record' : α}
    (put : set record value = record') : Reads ((Field.of name reader set write).read record) text record' :=
  put ▸ reads.map (set record)

theorem Gives.takes (gives : Gives offers (fields.map (·.name)) given pairs final) (spaced : ∀ p ∈ pairs, p.Spaced)
    (steps : ∀ field ∈ fields, ∀ given, field.name ∉ given → ∀ text, offers field.name text →
      Reads (field.read (merge given)) text (merge (field.name :: given))) :
    Json.Takes (readMember fields) (merge given, given) pairs (merge final, final) := by
  -- On the members that are left; `given` holds the names that were read before.
  induction gives with
  | nil => exact .nil
  | @field given _ p _ name listed fresh spelled offered _ ih =>
      obtain ⟨first, later⟩ := List.forall_mem_cons.mp spaced
      refine .cons spelled (fun rest stops => ?_) (ih later)
      obtain ⟨field, inside, rfl⟩ := List.mem_map.mp listed
      cases found : fields.find? fun other => other.name == field.name with
      | none =>
          have absent := List.find?_eq_none.mp found field inside
          simp at absent
      | some other =>
          have known := List.find?_some found
          have same : other.name = field.name := eq_of_beq known
          have reads := steps other (List.mem_of_find?_eq_some found) given (same ▸ fresh) p.element.value
            (same ▸ offered)
          have new : given.contains field.name = false := by simpa using fresh
          have read := reads _ _ first.element.before (Json.stops_append first.element.after stops)
          rw [same] at read
          simp only [readMember, found, new, Bool.false_eq_true, if_false, Json.readColon_append first.behind,
            Json.Element.text_append, bind, Except.bind, read]
          rfl
  | @other given _ p _ name unlisted spelled isValue _ ih =>
      obtain ⟨first, later⟩ := List.forall_mem_cons.mp spaced
      refine .cons spelled (fun rest stops => ?_) (ih later)
      have absent : (fields.find? fun field => field.name == name) = none := by
        simp only [List.find?_eq_none, beq_iff_eq]
        exact fun field member same => unlisted (List.mem_map.mpr ⟨field, member, same⟩)
      simp only [readMember, absent, first.skipMember isValue stops]
      rfl

/-- An object for a record that gives these fields. -/
def Presents (offers : String → List Char → Prop) (known given : List String) (text : List Char) : Prop :=
  ∃ pairs, Encloses '\x7b' '\x7d' (pairs.map Pair.text) text ∧ (∀ p ∈ pairs, p.Spaced) ∧
    Gives offers known [] pairs given

theorem Presents.reads {text : List Char} (presents : Presents offers (fields.map (·.name)) final text)
    (steps : ∀ field ∈ fields, ∀ given, field.name ∉ given → ∀ text, offers field.name text →
      Reads (field.read (merge given)) text (merge (field.name :: given))) (expected : String) :
    Reads (readRecord expected fields (merge [])) text (merge final) := by
  obtain ⟨pairs, encloses, spaced, gives⟩ := presents
  intro before rest areBlanks stops
  have brace : Json.isBlank '\x7b' = false := rfl
  obtain ⟨inner, rfl⟩ := encloses.head
  have members := (gives.takes spaced steps).readObject spaced encloses rest
  rw [readRecord, Json.readRecord, Json.skipBlanks_append areBlanks, List.cons_append, Json.skipBlanks_cons brace]
  simp only [members]
  rfl

def pair (record : α) (field : Field α) : Pair where
  name := field.name.toList.flatMap Json.escape
  element := { value := field.write record }

theorem gives_pairs {record : α} {chosen : List (Field α)} (once : (chosen.map (·.name)).Nodup)
    (known : ∀ field ∈ chosen, field ∈ fields) (new : ∀ field ∈ chosen, field.name ∉ given)
    (offered : ∀ field ∈ chosen, offers field.name (field.write record)) :
    Gives offers (fields.map (·.name)) given (chosen.map (pair record)) ((chosen.map (·.name)).reverse ++ given) := by
  induction chosen generalizing given with
  | nil => exact .nil
  | cons field chosen ih =>
      obtain ⟨apart, once'⟩ := List.nodup_cons.mp once
      have new' : ∀ other ∈ chosen, other.name ∉ field.name :: given := by
        intro other member
        refine List.not_mem_cons_of_ne_of_not_mem ?_ (new other (List.mem_cons_of_mem _ member))
        exact fun same => apart (List.mem_map.mpr ⟨other, member, same⟩)
      have later := ih once' (fun other member => known other (List.mem_cons_of_mem _ member)) new'
        (fun other member => offered other (List.mem_cons_of_mem _ member))
      rw [List.map_cons, List.map_cons, List.reverse_cons, List.append_assoc, List.singleton_append]
      exact .field (List.mem_map_of_mem (known field List.mem_cons_self)) (new field List.mem_cons_self)
        (Json.denotes_flatMap_escape _) (offered field List.mem_cons_self) later

theorem presents_writeRecord {record : α} (several : fields ≠ []) (once : (fields.map (·.name)).Nodup)
    (offered : ∀ field ∈ fields, offers field.name (field.write record)) :
    Presents offers (fields.map (·.name)) (fields.map (·.name)).reverse (writeRecord fields record) := by
  have written (field : Field α) : (pair record field).text = Json.writeMember field.name (field.write record) := by
    simp [pair, Pair.text, Json.Element.text, Json.writeMember, Json.writeString]
  refine ⟨fields.map (pair record), ?_, fun p member => ?_, ?_⟩
  · obtain ⟨field, others, rfl⟩ := List.exists_cons_of_ne_nil several
    rw [List.map_map, writeRecord, Json.writeObject]
    simp only [Function.comp_def, written]
    exact .parts _ _
  · obtain ⟨field, -, rfl⟩ := List.mem_map.mp member
    exact ⟨Json.areBlanks_nil, Json.areBlanks_nil, Json.areBlanks_nil, Json.areBlanks_nil⟩
  · have gives := gives_pairs once (fun _ member => member) (fun _ _ => List.not_mem_nil) offered
    rwa [List.append_nil] at gives

end Field

/-! ## Timings -/

def pick {β : Type} (given : List String) (name : String) (value default : β) : β :=
  if name ∈ given then value else default

namespace Timings

/-- The timings of which these were given. -/
def ofGiven (t : Timings) (given : List String) : Timings where
  warming := pick given "warming" t.warming ({} : Timings).warming
  duration := pick given "duration" t.duration ({} : Timings).duration
  recovery := pick given "recovery" t.recovery ({} : Timings).recovery
  settle := pick given "settle" t.settle ({} : Timings).settle
  stopDelay := pick given "stop_delay" t.stopDelay ({} : Timings).stopDelay

def Offers (t : Timings) (name : String) (text : List Char) : Prop :=
  ∃ field ∈ fields, field.name = name ∧ text = field.write t

end Timings

theorem reads_duration (d : Duration) : Reads Duration.read d.write d :=
  Json.reads_writeString "a duration" (by rw [d.ofText?_toText])

namespace Timings

theorem once_fields : (fields.map (·.name)).Nodup := by decide

theorem ofGiven_step (t : Timings) (field : Field Timings) (inside : field ∈ fields) (given : List String)
    (fresh : field.name ∉ given) (text : List Char) (offered : t.Offers field.name text) :
    Reads (field.read (t.ofGiven given)) text (t.ofGiven (field.name :: given)) := by
  obtain ⟨other, listed, same, rfl⟩ := offered
  obtain rfl := List.inj_on_of_nodup_map once_fields listed inside same
  clear listed same fresh
  simp only [fields, List.mem_cons, List.not_mem_nil, or_false] at inside
  rcases inside with rfl | rfl | rfl | rfl | rfl
  all_goals exact Field.reads_of (reads_duration _) (by simp [ofGiven, pick, Field.of])

end Timings

/-! ## Configurations -/

theorem reads_logLevel (level : LogLevel) : Reads LogLevel.read level.write level := by
  refine Json.reads_name ?_
  cases level <;> decide

namespace Config

/-- The numbers have the ranges of their types. -/
structure Fits (c : Config) : Prop where
  nodeCount : c.nodeCount < wordBound
  accounts : c.accounts < 4294967296
  transferAmount : -signedBound ≤ c.transferAmount ∧ c.transferAmount < signedBound
  expectedTotal : -signedBound ≤ c.expectedTotal ∧ c.expectedTotal < signedBound
  workerThreads : c.workerThreads < wordBound
  setupTries : c.setupTries < wordBound

/-- The configuration of which these fields were given, and of the timings these. -/
def ofGiven (c : Config) (given timings : List String) : Config where
  nodeCount := pick given "node_count" c.nodeCount ({} : Config).nodeCount
  accounts := pick given "n_accounts" c.accounts ({} : Config).accounts
  transferAmount := pick given "transfer_amount" c.transferAmount ({} : Config).transferAmount
  expectedTotal := pick given "expected_total" c.expectedTotal ({} : Config).expectedTotal
  failureBackoff := pick given "failure_backoff" c.failureBackoff ({} : Config).failureBackoff
  connectTimeout := pick given "connect_timeout" c.connectTimeout ({} : Config).connectTimeout
  workerThreads := pick given "worker_threads" c.workerThreads ({} : Config).workerThreads
  setupTries := pick given "setup_tries" c.setupTries ({} : Config).setupTries
  setupDelay := pick given "setup_delay" c.setupDelay ({} : Config).setupDelay
  stopGrace := pick given "stop_grace" c.stopGrace ({} : Config).stopGrace
  timings := pick given "timings" (c.timings.ofGiven timings) {}
  logLevel := pick given "log_level" c.logLevel ({} : Config).logLevel

/-- The texts in which a field may be given: timings as an object for any of them, another field as it is written. -/
def Offers (c : Config) (timings : List String) (name : String) (text : List Char) : Prop :=
  if name = "timings" then Field.Presents c.timings.Offers (Timings.fields.map (·.name)) timings text
  else ∃ field ∈ fields, field.name = name ∧ text = field.write c

/-- A document that gives these fields of the configuration, and of its timings these. -/
def Documents (c : Config) (given timings : List String) (text : String) : Prop :=
  ∃ before object after, text.toList = before ++ (object ++ after) ∧ AreBlanks before ∧ AreBlanks after ∧
    Field.Presents (c.Offers timings) (fields.map (·.name)) given object

variable {c : Config}

theorem reads_amount {n : Int} (range : -signedBound ≤ n ∧ n < signedBound) : Reads readAmount (Json.writeInt n) n := by
  have words : signedBound < wordBound := by decide
  exact Json.reads_writeInt "i64" range.1 (by omega) range.1 (by omega)

theorem once_fields : (fields.map (·.name)).Nodup := by decide

theorem ofGiven_step (fits : c.Fits) (timings : List String) (field : Field Config) (inside : field ∈ fields)
    (given : List String) (text : List Char) (offered : c.Offers timings field.name text) :
    Reads (field.read (c.ofGiven given timings)) text (c.ofGiven (field.name :: given) timings) := by
  have written (apart : field.name ≠ "timings") : text = field.write c := by
    rw [Offers, if_neg apart] at offered
    obtain ⟨other, listed, same, rfl⟩ := offered
    rw [List.inj_on_of_nodup_map once_fields listed inside same]
  have timingsRead (isTimings : field.name = "timings") : Reads Timings.read text (c.timings.ofGiven timings) := by
    rw [Offers, if_pos isTimings] at offered
    exact offered.reads (fun field inside given fresh text => c.timings.ofGiven_step field inside given fresh text) _
  clear offered
  simp only [fields, List.mem_cons, List.not_mem_nil, or_false] at inside
  rcases inside with rfl | rfl | rfl | rfl | rfl | rfl | rfl | rfl | rfl | rfl | rfl | rfl
  · exact written (by decide) ▸ Field.reads_of (Json.reads_decimal "usize" fits.nodeCount (Nat.le_refl _))
      (by simp [ofGiven, pick, Field.of])
  · exact written (by decide) ▸ Field.reads_of (Json.reads_decimal "u32" fits.accounts (by decide))
      (by simp [ofGiven, pick, Field.of])
  · exact written (by decide) ▸ Field.reads_of (reads_amount fits.transferAmount) (by simp [ofGiven, pick, Field.of])
  · exact written (by decide) ▸ Field.reads_of (reads_amount fits.expectedTotal) (by simp [ofGiven, pick, Field.of])
  · exact written (by decide) ▸ Field.reads_of (reads_duration _) (by simp [ofGiven, pick, Field.of])
  · exact written (by decide) ▸ Field.reads_of (reads_duration _) (by simp [ofGiven, pick, Field.of])
  · exact written (by decide) ▸ Field.reads_of (Json.reads_decimal "usize" fits.workerThreads (Nat.le_refl _))
      (by simp [ofGiven, pick, Field.of])
  · exact written (by decide) ▸ Field.reads_of (Json.reads_decimal "usize" fits.setupTries (Nat.le_refl _))
      (by simp [ofGiven, pick, Field.of])
  · exact written (by decide) ▸ Field.reads_of (reads_duration _) (by simp [ofGiven, pick, Field.of])
  · exact written (by decide) ▸ Field.reads_of (reads_duration _) (by simp [ofGiven, pick, Field.of])
  · exact Field.reads_of (timingsRead rfl) (by simp [ofGiven, pick, Field.of])
  · exact written (by decide) ▸ Field.reads_of (reads_logLevel _) (by simp [ofGiven, pick, Field.of])

theorem ofText_documents {given timings : List String} {text : String} (fits : c.Fits)
    (documents : c.Documents given timings text) :
    ofText text = (c.ofGiven given timings).validate.map fun _ => c.ofGiven given timings := by
  obtain ⟨before, object, after, split, areBlanks, areBlanks', presents⟩ := documents
  have stops : Stops after := fun d tail same => .inl (areBlanks' d (same ▸ List.mem_cons_self))
  have reads : Reads read object (c.ofGiven given timings) :=
    presents.reads (fun field inside given _ text => ofGiven_step fits timings field inside given text) _
  have document : Json.readDocument read text = .ok (c.ofGiven given timings) := by
    refine Json.readDocument_eq_ok_iff.mpr ⟨after, ?_, areBlanks'⟩
    rw [split]
    exact reads before after areBlanks stops
  rw [ofText, document]
  change (do (c.ofGiven given timings).validate; return c.ofGiven given timings) = _
  cases (c.ofGiven given timings).validate <;> rfl

theorem documents_write (c : Config) :
    c.Documents (fields.map (·.name)).reverse (Timings.fields.map (·.name)).reverse c.write := by
  refine ⟨[], Field.writeRecord fields c, [], by simp [write], Json.areBlanks_nil, Json.areBlanks_nil, ?_⟩
  refine Field.presents_writeRecord (List.cons_ne_nil _ _) once_fields fun field inside => ?_
  rw [Offers]
  split
  · next isTimings =>
      have listed : fields[10] ∈ fields := List.getElem_mem _
      obtain rfl : field = fields[10] := List.inj_on_of_nodup_map once_fields inside listed isTimings
      exact Field.presents_writeRecord (List.cons_ne_nil _ _) Timings.once_fields fun timing inside =>
        ⟨timing, inside, rfl, rfl⟩
  · exact ⟨field, inside, rfl, rfl⟩

theorem ofGiven_all (c : Config) :
    c.ofGiven (fields.map (·.name)).reverse (Timings.fields.map (·.name)).reverse = c := by
  simp [ofGiven, Timings.ofGiven, pick, fields, Timings.fields, Field.of]

/-- A document gives any part of the fields, of the timings each by itself, in any order and among members of other
names. These fields are read as they were written, the others keep their defaults, and the first fault of the whole is
told. So a sound configuration that was written is read back. -/
theorem partial_documents (c : Config) (fits : c.Fits) :
    (∀ (given timings : List String) (text : String), c.Documents given timings text →
      ofText text = (c.ofGiven given timings).validate.map fun _ => c.ofGiven given timings) ∧
    (c.validate = .ok () → ofText c.write = .ok c) := by
  refine ⟨fun given timings text => ofText_documents fits, fun valid => ?_⟩
  rw [ofText_documents fits c.documents_write, c.ofGiven_all, valid]
  rfl

def small : Config := { accounts := 2, timings := { duration := .ofSeconds 2 } }

/-- A member of another name stands in front, and blanks stand around the others. -/
def smallDocument : String :=
  "\x7b\"extra\":[1e999,\x7b\x7d], \"timings\" :\x7b\"duration\":\"2s\"\x7d ,\"n_accounts\": 2\x7d\n"

def extraElements : List Json.Element := [{ value := "1e999".toList }, { value := "\x7b\x7d".toList }]

def durationPair : Pair := { name := "duration".toList, element := { value := "\"2s\"".toList } }

def smallPairs : List Pair :=
  [{ name := "extra".toList, element := { value := Json.writeList (extraElements.map Json.Element.text) } },
   { before := [' '], name := "timings".toList, behind := [' ']
     element := { value := Json.writeObject [durationPair.text], after := [' '] } },
   { name := "n_accounts".toList, element := { before := [' '], value := ['2'] } }]

theorem isValue_extra : IsValue (Json.writeList (extraElements.map Json.Element.text)) := by
  have digits : Json.AreDigits ['9', '9', '9'] := by decide
  have number : Json.IsNumber ([] ++ (['1'] ++ ([] ++ 'e' :: ([] ++ ['9', '9', '9'])))) :=
    .mk (.inl rfl) ⟨by decide, by decide⟩ .absent (.power (.inl rfl) (.inl rfl) digits)
  have nothing : Encloses '\x7b' '\x7d' (([] : List Pair).map Pair.text) ('\x7b' :: ([] ++ ['\x7d'])) :=
    .nothing Json.areBlanks_nil
  have encloses : Encloses '[' ']' (extraElements.map Json.Element.text)
      (Json.writeList (extraElements.map Json.Element.text)) := .parts _ _
  refine .list encloses (List.forall_mem_cons.mpr ⟨⟨by decide, by decide⟩, ?_⟩) ?_
  · exact List.forall_mem_singleton.mpr ⟨by decide, by decide⟩
  · exact List.forall_mem_cons.mpr ⟨.number number, List.forall_mem_singleton.mpr (.object nothing nofun nofun nofun)⟩

theorem documents_small : small.Documents ["n_accounts", "timings"] ["duration"] smallDocument := by
  have plain (text : List Char) (same : text.flatMap Json.escape = text) : Denotes text text := by
    have denotes := Json.denotes_flatMap_escape text
    rwa [same] at denotes
  have timings : small.Offers ["duration"] "timings" (Json.writeObject [durationPair.text]) := by
    rw [Offers, if_pos rfl]
    refine ⟨[durationPair], .parts _ _, ?_, ?_⟩
    · exact List.forall_mem_singleton.mpr ⟨by decide, by decide, by decide, by decide⟩
    · exact .field (by decide) (by decide) (plain _ (by decide))
        ⟨Timings.fields[1], List.getElem_mem _, rfl, by decide +kernel⟩ .nil
  have accounts : small.Offers ["duration"] "n_accounts" ['2'] := ⟨fields[1], List.getElem_mem _, rfl, by decide⟩
  refine ⟨[], Json.writeObject (smallPairs.map Pair.text), ['\n'], by decide, by decide, by decide,
    smallPairs, .parts _ _, ?_, ?_⟩
  · simp only [smallPairs, List.forall_mem_cons, List.not_mem_nil, false_implies, implies_true, and_true]
    exact ⟨⟨by decide, by decide, by decide, by decide⟩, ⟨by decide, by decide, by decide, by decide⟩,
      ⟨by decide, by decide, by decide, by decide⟩⟩
  · refine .other (by decide) (plain _ (by decide)) isValue_extra ?_
    refine .field (by decide) (by decide) (plain _ (by decide)) timings ?_
    exact .field (by decide) (by decide) (plain _ (by decide)) accounts .nil

theorem fault_of_small :
    ofText smallDocument = .error (.tooFewAccounts 2) ∧
      ofText { small with accounts := 50 }.write = .ok { small with accounts := 50 } := by
  have fits : small.Fits := ⟨by decide, by decide, by decide, by decide, by decide, by decide⟩
  have fits' : Fits { small with accounts := 50 } :=
    ⟨by decide, by decide, by decide, by decide, by decide, by decide⟩
  constructor
  · rw [(partial_documents small fits).1 _ _ _ documents_small]
    decide +kernel
  · exact (partial_documents { small with accounts := 50 } fits').2 (by decide)

end Config

end LedgerDrill
