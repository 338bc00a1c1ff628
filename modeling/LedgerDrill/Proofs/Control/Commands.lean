import LedgerDrill.Control.Command
import LedgerDrill.Proofs.Json.Reading

namespace LedgerDrill

namespace Json

/-- A document that is a single string, and the 16-bit units that the string tells. -/
def IsStringDocument (document : List Char) (us : List Nat) : Prop :=
  ∃ before body after, document = before ++ '"' :: (body ++ '"' :: after) ∧ IsBody body us ∧
    ∀ c ∈ before ++ after, c ∈ [' ', '\n', '\t', '\r']

/-- A document that is a single string, and the text that the string denotes. -/
def IsTextDocument (document text : List Char) : Prop := IsStringDocument document (text.flatMap units)

variable {rest : List Char} {document text : String}

theorem readString_eq_ok_iff {input : List Char} :
    readString input = .ok (text, rest) ↔
      ∃ before body, (∀ c ∈ before, isBlank c = true) ∧ Denotes body text.toList ∧
        input = before ++ '"' :: (body ++ '"' :: rest) := by
  have shown : isBlank '"' = false := rfl
  constructor
  · intro read
    obtain ⟨before, blanks, split⟩ := exists_blanks input
    unfold readString readStringAs at read
    split at read
    · next opened found =>
        cases known : readChars .plain opened with
        | error e =>
            rw [known] at read
            cases read
        | ok result =>
            rw [known] at read
            cases read
            obtain ⟨body, denotes, rfl⟩ := readChars_eq_ok_iff.mp known
            rw [found] at split
            exact ⟨before, body, blanks, by rwa [String.toList_ofList], split⟩
    · cases read
  · rintro ⟨before, body, blanks, denotes, rfl⟩
    have opened : skipBlanks (before ++ '"' :: (body ++ '"' :: rest)) = '"' :: (body ++ '"' :: rest) := by
      rw [skipBlanks_append blanks, skipBlanks_cons shown]
    simp only [readString, readStringAs, opened, readChars_denotes denotes]
    change Except.ok (String.ofList text.toList, rest) = _
    rw [String.ofList_toList]

theorem readDocument_readString_eq_ok_iff :
    readDocument readString document = .ok text ↔ IsTextDocument document.toList text.toList := by
  rw [readDocument_eq_ok_iff]
  constructor
  · rintro ⟨after, read, blanksAfter⟩
    obtain ⟨before, body, blanksBefore, denotes, split⟩ := readString_eq_ok_iff.mp read
    refine ⟨before, body, after, split, denotes.isBody, fun c member => isBlank_iff.mp ?_⟩
    exact (List.mem_append.mp member).elim (blanksBefore c) (blanksAfter c)
  · rintro ⟨before, body, after, split, isBody, blanks⟩
    obtain ⟨blanksBefore, blanksAfter⟩ := List.forall_mem_append.mp blanks
    refine ⟨after, readString_eq_ok_iff.mpr ?_, fun c member => isBlank_iff.mpr (blanksAfter c member)⟩
    exact ⟨before, body, fun c member => isBlank_iff.mpr (blanksBefore c member), denotes_iff.mpr isBody, split⟩

theorem isTextDocument_writeString (text : List Char) : IsTextDocument (writeString text) text :=
  ⟨[], text.flatMap escape, [], by simp [writeString], (denotes_flatMap_escape text).isBody, by simp⟩

end Json

namespace Control.Command
open Json (IsBody IsHexDigit IsPiece IsStringDocument IsTextDocument IsUnit)

variable {frame other : String}

theorem decode_eq_ok_iff {command : Command} :
    decode frame = .ok command ↔ ∃ text, ofText text = command ∧ IsTextDocument frame.toList text.toList := by
  simp only [← Json.readDocument_readString_eq_ok_iff, decode]
  cases Json.readDocument Json.readString frame with
  | error e => simp [Except.map]
  | ok text => simp [Except.map]

theorem ofText_eq_status_iff {text : String} : ofText text = .status ↔ text = "status" := by
  unfold ofText
  split <;> simp [*]

theorem ofText_eq_unknown_iff {text : String} : ofText text = .unknown other ↔ text = other ∧ other ≠ "status" := by
  unfold ofText
  split
  · next same =>
      simp only [reduceCtorEq, false_iff, not_and, not_not]
      rintro rfl
      exact same
  · next different =>
      rw [unknown.injEq, and_comm]
      exact ⟨fun same => ⟨same ▸ different, same⟩, And.right⟩

/-- Whatever the text of a command is, its frame is decoded to this command. Whatever a frame is, it is decoded to
the command that it denotes as a single string, and is refused exactly if it is no single string that denotes a
text. -/
theorem frames_are_strings (text frame : String) :
    decode (encode text) = .ok (if text = "status" then .status else .unknown text) ∧
    (decode frame = .ok .status ↔ IsTextDocument frame.toList "status".toList) ∧
    (∀ other, decode frame = .ok (.unknown other) ↔ other ≠ "status" ∧ IsTextDocument frame.toList other.toList) ∧
    ((∃ e, decode frame = .error e) ↔ ¬ ∃ denoted, IsTextDocument frame.toList denoted) := by
  refine ⟨?_, ?_, fun other => ?_, ?_⟩
  · refine decode_eq_ok_iff.mpr ⟨text, rfl, ?_⟩
    rw [encode, String.toList_ofList]
    exact Json.isTextDocument_writeString text.toList
  · simp only [decode_eq_ok_iff, ofText_eq_status_iff, exists_eq_left]
  · simp only [decode_eq_ok_iff, ofText_eq_unknown_iff, and_assoc, exists_eq_left]
  · constructor
    · rintro ⟨e, refused⟩ ⟨denoted, isString⟩
      have read : decode frame = .ok (ofText (String.ofList denoted)) :=
        decode_eq_ok_iff.mpr ⟨_, rfl, by rwa [String.toList_ofList]⟩
      rw [refused] at read
      cases read
    · intro none
      cases read : decode frame with
      | error e => exact ⟨e, rfl⟩
      | ok command =>
          obtain ⟨denoted, -, isString⟩ := decode_eq_ok_iff.mp read
          exact absurd ⟨_, isString⟩ none

/-- Half of a pair is told by a string like any other unit, but it is no text, and the frame is refused. -/
theorem half_pair_is_refused :
    let frame := "\"\\uDEAD\""
    IsStringDocument frame.toList [0xDEAD] ∧ decode frame = .error .loneSurrogate ∧
      ¬ ((∃ e, decode frame = .error e) ↔ ¬ ∃ us, IsStringDocument frame.toList us) := by
  intro frame
  have told : IsUnit ['D', 'E', 'A', 'D'] 0xDEAD :=
    .mk (w := 13) (x := 14) (y := 10) (z := 13) (by decide) (by decide) (by decide) (by decide)
  have isString : IsStringDocument frame.toList [0xDEAD] :=
    ⟨[], _, [], by decide +kernel, (IsPiece.unit told).isBody, by simp⟩
  have refused : decode frame = .error .loneSurrogate := by decide +kernel
  exact ⟨isString, refused, fun same => same.mp ⟨_, refused⟩ ⟨_, isString⟩⟩

/-- Escapes by number, one of them a pair, and blanks on both sides. -/
example : decode " \"\\u0073top \\uD83D\\uDE00\" \n" = .ok (.unknown "stop 😀") := by decide +kernel

end Control.Command

end LedgerDrill
