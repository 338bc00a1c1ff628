import LedgerDrill.Proofs.Json.Values

namespace LedgerDrill.Json
open Text (isDigit decimal)

def Reads {α : Type} (read : Reader α) (text : List Char) (value : α) : Prop :=
  ∀ before rest, AreBlanks before → Stops rest → read (before ++ (text ++ rest)) = .ok (value, rest)

theorem Reads.map {α β : Type} {read : Reader α} {text : List Char} {value : α} (reads : Reads read text value)
    (f : α → β) : Reads (fun text => do let (value, rest) ← read text; return (f value, rest)) text (f value) := by
  intro before rest areBlanks stops
  simp only [reads before rest areBlanks stops]
  rfl

/-! ## Numbers and strings -/

theorem readNumber_writeInt {n : Int} (low : -signedBound ≤ n) (high : n < wordBound) {rest : List Char}
    (stops : Stops rest) :
    ∃ number, readNumber (writeInt n ++ rest) = .ok (number, rest) ∧ number.found = .integer n := by
  cases n with
  | ofNat n =>
      refine ⟨.natural n, ?_, rfl⟩
      rw [writeInt, readNumber_decimal]
      exact (readDigits_decimal false n stops).1 (Int.ofNat_lt.mp high)
  | negSucc n =>
      have small : n + 1 ≤ signedBound := by omega
      have inside : n + 1 < wordBound := Nat.lt_of_le_of_lt small (by decide)
      refine ⟨.negative (n + 1), ?_, rfl⟩
      change readDigits true (decimal (n + 1) ++ rest) = _
      rw [(readDigits_decimal true (n + 1) stops).1 inside]
      simp [ofWhole, small]

theorem writeInt_head (n : Int) : ∃ c tail, writeInt n = c :: tail ∧ (c = '-' ∨ isDigit c = true) := by
  cases n with
  | ofNat n =>
      obtain ⟨c, digits, split, digit, -⟩ := decimal_cases n
      exact ⟨c, digits, split, .inr digit⟩
  | negSucc n => exact ⟨'-', _, rfl, .inl rfl⟩

theorem reads_writeInt {low high n : Int} (expected : String) (above : low ≤ n) (below : n ≤ high)
    (least : -signedBound ≤ n) (most : n < wordBound) : Reads (readInteger low high expected) (writeInt n) n := by
  intro before rest areBlanks stops
  obtain ⟨number, read, found⟩ := readNumber_writeInt least most stops
  obtain ⟨c, tail, split, signOrDigit⟩ := writeInt_head n
  have shown : isBlank c = false := by
    rcases signOrDigit with rfl | digit
    · rfl
    · exact isBlank_of_isDigit digit
  have isNumber : ((writeInt n ++ rest).head?.any fun c => c == '-' || isDigit c) = true := by
    rw [split]
    rcases signOrDigit with rfl | digit
    · rfl
    · simp [digit]
  have begins : skipBlanks (writeInt n ++ rest) = writeInt n ++ rest := by
    rw [split, List.cons_append, skipBlanks_cons shown]
  simp only [readInteger, skipBlanks_append areBlanks, begins, isNumber, if_true, read, bind, Except.bind, found,
    above, below, and_self]

theorem reads_decimal {bound n : Nat} (expected : String) (fits : n < bound) (words : bound ≤ wordBound) :
    Reads (readNatural bound expected) (decimal n) n := by
  have reads : Reads (readInteger 0 (bound - 1) expected) (writeInt n) n :=
    reads_writeInt expected (by omega) (by omega) (by omega) (by omega)
  exact reads.map Int.toNat

theorem reads_writeString {α : Type} (expected : String) {take : String → Except Error α} {text : String} {value : α}
    (taken : take text = .ok value) : Reads (readStringAs expected take) (writeString text.toList) value := by
  intro before rest areBlanks stops
  have begins : readStringAs expected take (before ++ (writeString text.toList ++ rest)) =
      readStringAs expected take (writeString text.toList ++ rest) := by
    simp only [readStringAs, skipBlanks_append areBlanks]
  rw [begins, readStringAs_writeString, taken]
  rfl

theorem reads_name {α : Type} {take : String → Except Error α} {text : String} {value : α}
    (taken : take text = .ok value) : Reads (readName take) (writeString text.toList) value := by
  intro before rest areBlanks stops
  have quote : isBlank '"' = false := rfl
  rw [writeString_append]
  simp only [readName, skipBlanks_append areBlanks, skipBlanks_cons quote, readChars_flatMap_escape]
  change (do return (← take (String.ofList text.toList), rest)) = _
  rw [String.ofList_toList, taken]
  rfl

/-! ## Objects -/

section

variable {α : Type} {member : Member α} {seen next final : α} {p : Pair} {pairs : List Pair} {rest : List Char}

inductive Takes (member : Member α) : α → List Pair → α → Prop
  | nil {seen : α} : Takes member seen [] seen
  | cons {seen next final : α} {p : Pair} {pairs : List Pair} {name : String} (spelled : Denotes p.name name.toList)
      (taken : ∀ rest, Stops rest →
        member seen name (p.behind ++ ':' :: (p.element.text ++ rest)) = .ok (next, p.element.after ++ rest))
      (later : Takes member next pairs final) : Takes member seen (p :: pairs) final

theorem nextKey_first (spaced : p.Spaced) (rest : List Char) : nextKey true (p.text ++ rest) =
    .ok (.inl (p.name ++ '"' :: (p.behind ++ ':' :: (p.element.text ++ rest)))) := by
  have quote : isBlank '"' = false := rfl
  rw [Pair.text_append, nextKey, skipBlanks_append spaced.before, skipBlanks_cons quote]
  rfl

theorem nextKey_next (spaced : p.Spaced) (rest : List Char) : nextKey false (',' :: (p.text ++ rest)) =
    .ok (.inl (p.name ++ '"' :: (p.behind ++ ':' :: (p.element.text ++ rest)))) := by
  have quote : isBlank '"' = false := rfl
  have comma : isBlank ',' = false := rfl
  rw [Pair.text_append, nextKey, skipBlanks_cons comma]
  split
  · next same => cases same
  · next same => cases same
  · next same => cases same
  · next same =>
      obtain ⟨rfl, rfl⟩ := List.cons.inj same
      rw [if_neg Bool.false_ne_true, if_pos rfl, skipBlanks_append spaced.before, skipBlanks_cons quote]
      rfl

theorem nextKey_blanks {blanks : List Char} (areBlanks : AreBlanks blanks) (first : Bool) (rest : List Char) :
    nextKey first (blanks ++ rest) = nextKey first rest := by
  rw [nextKey, nextKey, skipBlanks_append areBlanks]

theorem Takes.readMembers (takes : Takes member seen pairs final) (spaced : ∀ p ∈ pairs, p.Spaced) {bound : Nat}
    (enough : pairs.length < bound) {blanks : List Char} (areBlanks : AreBlanks blanks) (rest : List Char) :
    readMembers member bound false seen (blanks ++ (writeRest (pairs.map Pair.text) ++ '\x7d' :: rest)) =
      .ok (final, rest) := by
  induction takes generalizing bound blanks with
  | nil =>
      obtain ⟨bound, rfl⟩ := Nat.exists_eq_succ_of_ne_zero (Nat.ne_zero_of_lt enough)
      rw [Json.readMembers, nextKey_blanks areBlanks]
      rfl
  | @cons _ _ _ p pairs _ spelled taken _ ih =>
      obtain ⟨first, later⟩ := List.forall_mem_cons.mp spaced
      obtain ⟨bound, rfl⟩ := Nat.exists_eq_succ_of_ne_zero (Nat.ne_zero_of_lt enough)
      have stops : Stops (writeRest (pairs.map Pair.text) ++ '\x7d' :: rest) := stops_writeRest .object _ rest
      rw [Json.readMembers, nextKey_blanks areBlanks, List.map_cons, writeRest_cons, List.cons_append,
        List.append_assoc, nextKey_next first]
      simp only [bind, Except.bind, readChars_denotes spelled, String.ofList_toList]
      rw [taken _ stops]
      exact ih later (Nat.lt_of_succ_lt_succ enough) first.element.after

theorem Takes.readObject (takes : Takes member seen pairs final) (spaced : ∀ p ∈ pairs, p.Spaced) {inner : List Char}
    (encloses : Encloses '\x7b' '\x7d' (pairs.map Pair.text) ('\x7b' :: inner)) (rest : List Char) :
    readObject member seen (inner ++ rest) = .ok (final, rest) := by
  cases takes with
  | nil =>
      cases encloses with
      | nothing areBlanks =>
          rw [List.append_assoc, Json.readObject, Json.readMembers, nextKey_blanks areBlanks]
          rfl
  | @cons _ _ _ p pairs _ spelled taken later =>
      obtain ⟨first, others⟩ := List.forall_mem_cons.mp spaced
      have stops : Stops (writeRest (pairs.map Pair.text) ++ '\x7d' :: rest) := stops_writeRest .object _ rest
      have long := length_writeRest (pairs.map Pair.text)
      rw [List.length_map] at long
      rw [encloses.inner_eq, List.append_assoc, List.append_assoc, List.singleton_append, Json.readObject,
        Json.readMembers, nextKey_first first]
      simp only [bind, Except.bind, readChars_denotes spelled, String.ofList_toList]
      rw [taken _ stops]
      refine later.readMembers others ?_ first.element.after rest
      simp only [Pair.text, List.length_append, List.length_cons]
      omega

end

end LedgerDrill.Json
