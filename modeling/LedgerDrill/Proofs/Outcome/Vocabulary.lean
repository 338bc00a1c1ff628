import LedgerDrill.Proofs.Outcome.Labels

namespace LedgerDrill.Outcome

namespace Label

variable {text word name after needle : List Char} {c : Char}

theorem contains_iff_isInfix : contains needle text = true ↔ needle <:+: text := by
  induction text with
  | nil => rw [contains, List.isEmpty_iff, List.infix_nil]
  | cons c rest ih => rw [contains, Bool.or_eq_true, List.isPrefixOf_iff_prefix, ih, List.infix_cons_iff]

theorem trimStart_eq_self (first : text.head?.all (!Text.isBlank ·) = true) : Text.trimStart text = text := by
  cases text with
  | nil => rfl
  | cons c rest =>
      have noBlank : Text.isBlank c = false := by simpa using first
      simp [Text.trimStart, noBlank]

theorem trim_eq_self (first : text.head?.all (!Text.isBlank ·) = true)
    (last : text.getLast?.all (!Text.isBlank ·) = true) : Text.trim text = text := by
  rw [Text.trim, trimStart_eq_self first, Text.trimEnd]
  have reversed : Text.trimStart text.reverse = text.reverse :=
    trimStart_eq_self (by rwa [List.head?_reverse])
  rw [Text.trimStart] at reversed
  rw [reversed, List.reverse_reverse]

theorem cutAtLastClose?_of_notMem (noClose : ')' ∉ after) (before : List Char) :
    cutAtLastClose? (before ++ ')' :: after) = some (before, after) := by
  induction before with
  | nil => simp [cutAtLastClose?, cutAtLastClose?_eq_none_iff.mpr noClose]
  | cons c before ih => simp [cutAtLastClose?, ih]

theorem censor_of_line (oneLine : '\n' ∉ text) : censor text = censorLine text := by
  have line : ∀ c ∈ text, (c != '\n') = true := by
    intro c member
    rw [bne_iff_ne]
    rintro rfl
    exact oneLine member
  have none : (text ++ []).dropWhile (· != '\n') = [] := List.dropWhile_append_of_pos line
  have all : (text ++ []).takeWhile (· != '\n') = text ++ [] := List.takeWhile_append_of_pos line
  rw [List.append_nil] at none all
  rw [censor, all]
  split
  · rfl
  · next found => cases none.symm.trans found

theorem censor_abort (plain : ∀ c ∈ word, isPlain c = true) (starts : startsName name = true)
    (noClose : ')' ∉ after) (oneLine : '\n' ∉ word ++ ' ' :: (name ++ ')' :: after)) :
    censor (word ++ ' ' :: (name ++ ')' :: after)) = word ++ ' ' :: (censored ++ after) := by
  have cut : cutAtLastClose? (word ++ ' ' :: (name ++ ')' :: after)) = some (word ++ ' ' :: name, after) := by
    rw [← cutAtLastClose?_of_notMem noClose (word ++ ' ' :: name)]
    simp
  have kept : beforeName? (word ++ ' ' :: name) = some (word ++ [' ']) := by
    obtain ⟨first, rest, rfl⟩ : ∃ first rest, name = first :: rest := by
      cases name with
      | nil => cases starts
      | cons first rest => exact ⟨first, rest, rfl⟩
    have blank : startsName (' ' :: first :: rest) = false := rfl
    rw [beforeName?_append plain]
    simp [beforeName?, blank, starts]
  rw [censor_of_line oneLine]
  simp [censorLine, cut, kept]

theorem normalize_eq_self (first : text.head?.all (!Text.isBlank ·) = true)
    (last : text.getLast?.all (!Text.isBlank ·) = true) (marks : c ∈ abortMarker) (absent : c ∉ text) :
    normalize text = text := by
  have unmarked : contains abortMarker text = false :=
    Bool.eq_false_iff.mpr fun found => absent ((contains_iff_isInfix.mp found).subset marks)
  simp [normalize, trim_eq_self first last, unmarked]

theorem mem_repr {n : Nat} (member : c ∈ n.repr.toList) : c.isDigit = true := by
  rw [Nat.toList_repr] at member
  exact Nat.isDigit_of_mem_toDigits (by decide) (by decide) member

theorem notMem_repr (noDigit : c.isDigit = false) (n : Nat) : c ∉ n.repr.toList := by
  intro member
  rw [mem_repr member] at noDigit
  contradiction

theorem head?_append_all {p : Char → Bool} (first : text.head?.any p = true) (after : List Char) :
    (text ++ after).head?.all p = true := by
  rw [List.head?_append]
  cases text <;> simp_all

theorem getLast?_append_all {p : Char → Bool} (last : text.getLast?.any p = true) (before : List Char) :
    (before ++ text).getLast?.all p = true := by
  rw [List.getLast?_append]
  cases h : text.getLast? <;> simp_all

theorem ofText_around {before after : String} (n : Nat)
    (first : before.toList.head?.any (!Text.isBlank ·) = true)
    (last : after.toList.getLast?.any (!Text.isBlank ·) = true)
    (marks : c ∈ abortMarker) (noDigit : c.isDigit = false) (absent : c ∉ before.toList)
    (absent' : c ∉ after.toList) :
    ofText (before ++ n.repr ++ after) = before ++ n.repr ++ after := by
  have split : (before ++ n.repr ++ after).toList = before.toList ++ (n.repr.toList ++ after.toList) := by
    rw [String.toList_append, String.toList_append, List.append_assoc]
  have missing : c ∉ before.toList ++ (n.repr.toList ++ after.toList) := by
    rw [List.mem_append, List.mem_append]
    rintro (member | member | member)
    · exact absent member
    · exact notMem_repr noDigit n member
    · exact absent' member
  have same : normalize (before ++ n.repr ++ after).toList = (before ++ n.repr ++ after).toList := by
    rw [split]
    refine normalize_eq_self (head?_append_all first _) ?_ marks missing
    rw [← List.append_assoc]
    exact getLast?_append_all last _
  rw [ofText, same, String.ofList_toList]

theorem suffix_append_cons (before : List Char) (c : Char) (after : List Char) : after <:+ before ++ c :: after :=
  (List.suffix_cons c after).trans (List.suffix_append _ _)

theorem normalize_abort (starts : startsName name = true) (noClose : ')' ∉ after)
    (oneLine : '\n' ∉ name ∧ '\n' ∉ after) (marked : abortMarker <:+: name ++ ')' :: after)
    (last : (')' :: after).getLast?.any (!Text.isBlank ·) = true) :
    normalize ("Transaction".toList ++ ' ' :: (name ++ ')' :: after)) =
      "Transaction".toList ++ ' ' :: (censored ++ after) := by
  have plain : ∀ c ∈ "Transaction".toList, isPlain c = true := List.all_eq_true.mp (by decide)
  have line : '\n' ∉ "Transaction".toList ++ ' ' :: (name ++ ')' :: after) := by
    simp [oneLine]
  have found : contains abortMarker ("Transaction".toList ++ ' ' :: (name ++ ')' :: after)) = true :=
    contains_iff_isInfix.mpr (marked.trans (suffix_append_cons _ ' ' _).isInfix)
  have ends : ("Transaction".toList ++ ' ' :: (name ++ ')' :: after)).getLast?.all (!Text.isBlank ·) = true := by
    rw [← List.cons_append, ← List.append_assoc]
    exact getLast?_append_all last _
  have begins := head?_append_all (by decide : "Transaction".toList.head?.any (!Text.isBlank ·) = true)
    (' ' :: (name ++ ')' :: after))
  rw [normalize, trim_eq_self begins ends]
  simp only [found, ↓reduceIte]
  exact censor_abort plain starts noClose line

def abortEnd (node reason : String) : List Char :=
  " ".toList ++ abortMarker ++ (" ".toList ++ node.toList ++ ": ".toList ++ reason.toList)

theorem ofText_abort {name node number reason : String}
    (starts : ∀ rest, startsName (name.toList ++ rest) = true)
    (noClose : ')' ∉ node.toList ∧ ')' ∉ reason.toList)
    (oneLine : '\n' ∉ name.toList ∧ '\n' ∉ node.toList ∧ '\n' ∉ number.toList ∧ '\n' ∉ reason.toList)
    (last : reason.toList.getLast?.any (!Text.isBlank ·) = true) :
    ofText ("Transaction " ++ name ++ " (node " ++ node ++ ", xid " ++ number ++ ") is aborted on node " ++
        node ++ ": " ++ reason) =
      "Transaction <censored> is aborted on node " ++ node ++ ": " ++ reason := by
  have word : "Transaction ".toList = "Transaction".toList ++ [' '] := rfl
  have close : ") is aborted on node ".toList = ')' :: (" ".toList ++ (abortMarker ++ " ".toList)) := rfl
  have hidden : "Transaction <censored> is aborted on node ".toList =
      "Transaction".toList ++ ' ' :: (censored ++ (" ".toList ++ (abortMarker ++ " ".toList))) := rfl
  have text : ("Transaction " ++ name ++ " (node " ++ node ++ ", xid " ++ number ++ ") is aborted on node " ++
      node ++ ": " ++ reason).toList =
      "Transaction".toList ++ ' ' :: (name.toList ++ (" (node ".toList ++ (node.toList ++ (", xid ".toList ++
        number.toList))) ++ ')' :: abortEnd node reason) := by
    simp only [String.toList_append, word, close, abortEnd, List.append_assoc, List.cons_append, List.nil_append]
  have label : ("Transaction <censored> is aborted on node " ++ node ++ ": " ++ reason).toList =
      "Transaction".toList ++ ' ' :: (censored ++ abortEnd node reason) := by
    simp only [String.toList_append, hidden, abortEnd, List.append_assoc, List.cons_append]
  -- The bracket after the number is the last one of the line, which is where the censor looks for a name.
  have closed : ')' ∉ abortEnd node reason := by
    simp only [abortEnd, List.mem_append, not_or]
    exact ⟨by decide, ⟨⟨by decide, noClose.1⟩, by decide⟩, noClose.2⟩
  have unbroken : '\n' ∉ abortEnd node reason := by
    simp only [abortEnd, List.mem_append, not_or]
    exact ⟨by decide, ⟨⟨by decide, oneLine.2.1⟩, by decide⟩, oneLine.2.2.2⟩
  have nameLine : '\n' ∉ name.toList ++ (" (node ".toList ++ (node.toList ++ (", xid ".toList ++ number.toList))) := by
    simp only [List.mem_append, not_or]
    exact ⟨oneLine.1, by decide, oneLine.2.1, by decide, oneLine.2.2.1⟩
  have ends : (')' :: abortEnd node reason).getLast?.any (!Text.isBlank ·) = true := by
    rw [abortEnd, ← List.append_assoc, ← List.cons_append, List.getLast?_append]
    cases kept : reason.toList.getLast? with
    | none => rw [kept] at last; cases last
    | some c => rwa [kept] at last
  have marked : abortMarker <:+: abortEnd node reason := List.infix_append _ _ _
  rw [ofText, text, normalize_abort (starts _) closed ⟨nameLine, unbroken⟩
    (marked.trans (suffix_append_cons _ _ _).isInfix) ends, ← label, String.ofList_toList]

end Label

def numbered : List (String × String) :=
  [("could not connect to node ", ": Connection refused"),
    ("could not connect to node ", ": timeout expired"),
    ("Transaction <censored> is aborted on node ", ": cluster has no quorum"),
    ("Transaction <censored> is aborted on node ", ": cluster lost quorum during commit"),
    ("node ", " is in recovery: no quorum to resynchronize"),
    ("node ", " is in recovery: no fresh donor reachable")]

/-- The labels that iterations on a node can end with. -/
def vocabulary (node : Nat) : List String :=
  commit :: "server closed the connection unexpectedly" ::
    numbered.map fun (before, after) => before ++ (node + 1).repr ++ after

/-- The errors that no iteration ends with while every row is there. -/
def isForeign : StoreError → Bool
  | .rowCount .. | .tooFewAccounts _ | .inFailedTransaction | .noTransaction => true
  | .connectFailed .. | .connectionClosed | .query _ => false

variable {node : Nat} {label text more : String} {word : List Char} {e : StoreError}

theorem mem_vocabulary (member : label ∈ vocabulary node) :
    label = commit ∨ label = "server closed the connection unexpectedly" ∨
      ∃ around ∈ numbered, label = around.1 ++ (node + 1).repr ++ around.2 := by
  rcases List.mem_cons.mp member with rfl | member
  · exact Or.inl rfl
  rcases List.mem_cons.mp member with rfl | member
  · exact Or.inr (Or.inl rfl)
  obtain ⟨around, listed, rfl⟩ := List.mem_map.mp member
  exact Or.inr (Or.inr ⟨around, listed, rfl⟩)

theorem notMem_of_mem_vocabulary (member : label ∈ vocabulary node) : 'M' ∉ label.toList := by
  rcases mem_vocabulary member with rfl | rfl | ⟨around, listed, rfl⟩
  · decide
  · decide
  · have absent : ∀ around ∈ numbered, 'M' ∉ around.1.toList ∧ 'M' ∉ around.2.toList := by
      simp only [numbered, List.forall_mem_cons]
      refine ⟨?_, ?_, ?_, ?_, ?_, ?_, fun _ none => absurd none List.not_mem_nil⟩ <;>
        (rw [String.toList_ofList, String.toList_ofList]; decide)
    rw [String.toList_append, String.toList_append, List.mem_append, List.mem_append]
    rintro ((found | found) | found)
    · exact (absent around listed).1 found
    · exact Label.notMem_repr (by decide) _ found
    · exact (absent around listed).2 found

def openings : List (List Char) := ["co".toList, "se".toList, "Tr".toList, "no".toList]

theorem begins_of_mem_vocabulary (member : label ∈ vocabulary node) :
    ∃ opening ∈ openings, opening <+: label.toList := by
  rcases mem_vocabulary member with rfl | rfl | ⟨around, listed, rfl⟩
  · decide
  · decide
  · have begins : ∀ around ∈ numbered, ∃ opening ∈ openings, opening <+: around.1.toList := by
      simp only [numbered, List.forall_mem_cons]
      refine ⟨?_, ?_, ?_, ?_, ?_, ?_, fun _ none => absurd none List.not_mem_nil⟩ <;>
        (rw [String.toList_ofList]; decide)
    obtain ⟨opening, known, isPrefix⟩ := begins around listed
    refine ⟨opening, known, ?_⟩
    rw [String.append_assoc, String.toList_append]
    exact isPrefix.trans (List.prefix_append _ _)

theorem notMem_vocabulary (message : e.message = text ++ more) (begins : word <+: text.toList)
    (plain : word.all Label.isPlain = true)
    (other : ∀ opening ∈ openings, opening.length ≤ word.length ∧ ¬ opening <+: word) :
    Label.ofText e.message ∉ vocabulary node := by
  intro member
  obtain ⟨opening, known, isPrefix⟩ := begins_of_mem_vocabulary member
  obtain ⟨short, different⟩ := other opening known
  exact different (List.prefix_of_prefix_length_le isPrefix (Label.prefix_ofText message begins plain) short)

theorem notMem_vocabulary_of_foreign (foreign : isForeign e = true) :
    Label.ofText e.message ∉ vocabulary node := by
  cases e with
  | connectFailed | connectionClosed | query => cases foreign
  | rowCount uid rows =>
      obtain ⟨more, message⟩ := message_rowCount uid rows
      have begins : ['u', 'p'] <+: "update of account ".toList := by decide
      exact notMem_vocabulary message begins (by decide) (by decide)
  | tooFewAccounts accounts =>
      obtain ⟨more, message⟩ := message_tooFewAccounts accounts
      have begins : ['c', 'a'] <+: "cannot transfer between ".toList := by decide
      exact notMem_vocabulary message begins (by decide) (by decide)
  | inFailedTransaction =>
      have begins : ['c', 'u'] <+: StoreError.inFailedTransaction.message.toList := by decide
      exact notMem_vocabulary (String.append_empty).symm begins (by decide) (by decide)
  | noTransaction =>
      have begins : ['t', 'h'] <+: StoreError.noTransaction.message.toList := by decide
      exact notMem_vocabulary (String.append_empty).symm begins (by decide) (by decide)

end LedgerDrill.Outcome
