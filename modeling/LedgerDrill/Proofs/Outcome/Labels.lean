import LedgerDrill.Error
import LedgerDrill.Outcome.Label

namespace LedgerDrill.Outcome.Label

def isPlain (c : Char) : Bool := !Text.isBlank c && c != ')' && c != 'M'

theorem isPlain_iff {c : Char} :
    isPlain c = true ↔ Text.isBlank c = false ∧ c ≠ ')' ∧ c ≠ 'M' := by
  simp [isPlain, and_assoc]

variable {word rest : List Char}

theorem dropWhile_isBlank (plain : ∀ c ∈ word, isPlain c = true) :
    word.dropWhile Text.isBlank = word := by
  cases word with
  | nil => rfl
  | cons c rest => simp [(isPlain_iff.mp (plain c List.mem_cons_self)).1]

theorem trim_append (plain : ∀ c ∈ word, isPlain c = true) (rest : List Char) :
    word <+: Text.trim (word ++ rest) := by
  cases word with
  | nil => exact List.nil_prefix
  | cons c word =>
      have noBlank := (isPlain_iff.mp (plain c List.mem_cons_self)).1
      have same : Text.trimStart (c :: word ++ rest) = c :: word ++ rest := by
        simp [Text.trimStart, noBlank]
      have reversed : (c :: word).reverse.dropWhile Text.isBlank = (c :: word).reverse :=
        dropWhile_isBlank fun other member => plain other (List.mem_reverse.mp member)
      rw [Text.trim, same, Text.trimEnd, List.reverse_append, List.dropWhile_append, reversed]
      split
      · exact ⟨[], by rw [List.append_nil, List.reverse_reverse]⟩
      · rw [List.reverse_append, List.reverse_reverse]
        exact List.prefix_append _ _

theorem cutAtLastClose?_append (plain : ∀ c ∈ word, isPlain c = true) (rest : List Char) :
    cutAtLastClose? (word ++ rest) = (cutAtLastClose? rest).map fun cut => (word ++ cut.1, cut.2) := by
  induction word with
  | nil => simp
  | cons c word ih =>
      have noClose := (isPlain_iff.mp (plain c List.mem_cons_self)).2.1
      have later := ih fun other member => plain other (List.mem_cons_of_mem _ member)
      simp only [List.cons_append, cutAtLastClose?, later]
      cases cutAtLastClose? rest with
      | none => simp [noClose]
      | some cut => rfl

theorem beforeName?_append (plain : ∀ c ∈ word, isPlain c = true) (rest : List Char) :
    beforeName? (word ++ rest) = (beforeName? rest).map (word ++ ·) := by
  induction word with
  | nil => simp
  | cons c word ih =>
      have noName := (isPlain_iff.mp (plain c List.mem_cons_self)).2.2
      have later := ih fun other member => plain other (List.mem_cons_of_mem _ member)
      have notHere : startsName (c :: (word ++ rest)) = false := by
        unfold startsName
        split
        · next same => exact absurd (List.cons.inj same).1 noName
        · rfl
      simp only [List.cons_append, beforeName?, notHere, later, Option.map_map]
      rfl

theorem censorLine_append (plain : ∀ c ∈ word, isPlain c = true) (rest : List Char) :
    word <+: censorLine (word ++ rest) := by
  rw [censorLine, cutAtLastClose?_append plain]
  cases cutAtLastClose? rest with
  | none => exact List.prefix_append _ _
  | some cut =>
      simp only [Option.map_some, beforeName?_append plain]
      cases beforeName? cut.1 with
      | none => exact List.prefix_append _ _
      | some kept =>
          simp only [Option.map_some, List.append_assoc]
          exact List.prefix_append _ _

theorem censor_append (plain : ∀ c ∈ word, isPlain c = true) (rest : List Char) :
    word <+: censor (word ++ rest) := by
  have noLineEnd : ∀ c ∈ word, (c != '\n') = true := by
    intro c member
    rw [bne_iff_ne]
    rintro rfl
    exact absurd (plain _ member) (by decide)
  rw [censor, List.takeWhile_append_of_pos noLineEnd]
  have line := censorLine_append plain (rest.takeWhile (· != '\n'))
  split
  · exact line
  · exact line.trans (List.prefix_append _ _)

theorem prefix_normalize (plain : ∀ c ∈ word, isPlain c = true) (rest : List Char) :
    word <+: normalize (word ++ rest) := by
  obtain ⟨rest', same⟩ := trim_append plain rest
  simp only [normalize, ← same]
  split
  · exact censor_append plain rest'
  · exact List.prefix_append _ _

theorem ofText_commit : ofText commit = commit := by decide

end Label

/-! ## Errors -/

/-- An error whose label is not that of a commit. -/
def IsFailure (e : StoreError) : Prop := Label.ofText e.message ≠ commit

variable {e : StoreError} {word : List Char} {text more : String}

theorem Label.prefix_ofText {message : String} (split : message = text ++ more) (begins : word <+: text.toList)
    (plain : word.all isPlain = true) : word <+: (ofText message).toList := by
  obtain ⟨rest, begins⟩ := begins
  have isPrefix := prefix_normalize (List.all_eq_true.mp plain) (rest ++ more.toList)
  rw [← List.append_assoc, begins, ← String.toList_append, ← split] at isPrefix
  rwa [ofText, String.toList_ofList]

theorem isFailure_of_word (message : e.message = text ++ more) (begins : word <+: text.toList)
    (plain : word.all Label.isPlain = true) (other : ¬ word <+: commit.toList) :
    IsFailure e := by
  intro same
  have isPrefix := Label.prefix_ofText message begins plain
  rw [same] at isPrefix
  exact other isPrefix

theorem isFailure_connectFailed (node : Nat) (reason : String) :
    IsFailure (.connectFailed node reason) := by
  have message : (StoreError.connectFailed node reason).message =
      "could not connect to node " ++ (node + 1).repr ++ ": " ++ reason := rfl
  rw [String.append_assoc, String.append_assoc] at message
  have begins : ['c', 'o', 'u'] <+: "could not connect to node ".toList := by decide
  exact isFailure_of_word message begins (by decide) (by decide)

theorem message_rowCount (uid rows : Nat) :
    ∃ more, (StoreError.rowCount uid rows).message = "update of account " ++ more := by
  have message : (StoreError.rowCount uid rows).message =
      "update of account " ++ uid.repr ++ " affected " ++ rows.repr ++ " rows, expected 1" := rfl
  rw [String.append_assoc, String.append_assoc, String.append_assoc] at message
  exact ⟨_, message⟩

theorem message_tooFewAccounts (accounts : Nat) :
    ∃ more, (StoreError.tooFewAccounts accounts).message = "cannot transfer between " ++ more := by
  have message : (StoreError.tooFewAccounts accounts).message =
      "cannot transfer between " ++ accounts.repr ++ " accounts, at least 3 are needed" := rfl
  rw [String.append_assoc] at message
  exact ⟨_, message⟩

theorem isFailure_rowCount (uid rows : Nat) : IsFailure (.rowCount uid rows) := by
  obtain ⟨more, message⟩ := message_rowCount uid rows
  have begins : ['u'] <+: "update of account ".toList := by decide
  exact isFailure_of_word message begins (by decide) (by decide)

theorem isFailure_tooFewAccounts (accounts : Nat) : IsFailure (.tooFewAccounts accounts) := by
  obtain ⟨more, message⟩ := message_tooFewAccounts accounts
  have begins : ['c', 'a'] <+: "cannot transfer between ".toList := by decide
  exact isFailure_of_word message begins (by decide) (by decide)

theorem isFailure_connectionClosed : IsFailure .connectionClosed := by
  unfold IsFailure
  decide

theorem isFailure_inFailedTransaction : IsFailure .inFailedTransaction := by
  unfold IsFailure
  decide

theorem isFailure_noTransaction : IsFailure .noTransaction := by
  unfold IsFailure
  decide

end LedgerDrill.Outcome
