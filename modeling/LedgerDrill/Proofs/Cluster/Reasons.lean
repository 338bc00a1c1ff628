import LedgerDrill.Proofs.Cluster.Errors
import LedgerDrill.Proofs.Text.Words

namespace LedgerDrill.Cluster
open Outcome

variable {id id' : TransactionId} {node node' : Nat} {reason reason' : String} {after : List Char}

/-- A text on one line that ends in no blank. -/
structure IsReason (reason : String) : Prop where
  said : reason ≠ ""
  oneLine : '\n' ∉ reason.toList
  last : reason.toList.getLast?.all (!Text.isBlank ·) = true

/-- What is left of an abort when only the transaction is hidden. -/
def abortLabel (node : Nat) (reason : String) : String :=
  "Transaction <censored> is aborted on node " ++ (node + 1).repr ++ ": " ++ reason

def abortNumbers (id : TransactionId) : List Char :=
  (" (node " ++ (id.node + 1).repr ++ ", xid " ++ id.number.repr ++ ") is aborted on node " ++
    (id.node + 1).repr ++ ": ").toList

theorem IsReason.getLast?_any (isReason : IsReason reason) :
    reason.toList.getLast?.any (!Text.isBlank ·) = true := by
  have last := isReason.last
  cases ending : reason.toList.getLast? with
  | none => exact absurd (String.toList_eq_nil_iff.mp (List.getLast?_eq_none_iff.mp ending)) isReason.said
  | some c => rwa [ending] at last

theorem toList_abortError (id : TransactionId) (reason : String) :
    (abortError id reason).message.toList =
      "Transaction".toList ++ ' ' :: (id.text.toList ++ (abortNumbers id ++ reason.toList)) := by
  have word : "Transaction ".toList = "Transaction".toList ++ [' '] := rfl
  rw [message_abortError]
  simp only [abortNumbers, String.toList_append, word, List.append_assoc, List.cons_append, List.nil_append]

theorem toList_abortLabel (node : Nat) (reason : String) :
    (abortLabel node reason).toList = "Transaction <censored>".toList ++
      (" is aborted on node ".toList ++ ((node + 1).repr.toList ++ ':' :: ' ' :: reason.toList)) := by
  have opening : "Transaction <censored> is aborted on node ".toList =
      "Transaction <censored>".toList ++ " is aborted on node ".toList := rfl
  have colon : ": ".toList = [':', ' '] := rfl
  unfold abortLabel
  simp only [String.toList_append, opening, colon, List.append_assoc, List.cons_append, List.nil_append]

theorem marker_infix_abortNumbers (id : TransactionId) : Label.abortMarker <:+: abortNumbers id := by
  have marked : ") is aborted on node ".toList = ") ".toList ++ (Label.abortMarker ++ " ".toList) := rfl
  refine ⟨(" (node " ++ (id.node + 1).repr ++ ", xid " ++ id.number.repr ++ ") ").toList,
    (" " ++ (id.node + 1).repr ++ ": ").toList, ?_⟩
  simp only [abortNumbers, String.toList_append, marked, List.append_assoc]

theorem break_notMem_abortNumbers (id : TransactionId) : '\n' ∉ abortNumbers id := by
  have digits (n : Nat) : '\n' ∉ n.repr.toList := Label.notMem_repr (by decide) n
  simp only [abortNumbers, String.toList_append, List.mem_append, not_or]
  exact ⟨⟨⟨⟨⟨⟨by decide, digits _⟩, by decide⟩, digits _⟩, by decide⟩, digits _⟩, by decide⟩

/-! ## Reasons with a parenthesis -/

theorem exists_last_close (closes : ')' ∈ reason.toList) :
    ∃ before after, reason.toList = before ++ ')' :: after ∧ ')' ∉ after := by
  cases cut : Label.cutAtLastClose? reason.toList with
  | none => exact absurd closes (Label.cutAtLastClose?_eq_none_iff.mp cut)
  | some parts =>
      exact ⟨parts.1, parts.2, Label.eq_append_of_cutAtLastClose? cut, Label.close_notMem_of_cutAtLastClose? cut⟩

theorem ofText_abortError_of_close (id : TransactionId) (isReason : IsReason reason) (before : List Char)
    (split : reason.toList = before ++ ')' :: after) (noClose : ')' ∉ after) :
    (Label.ofText (abortError id reason).message).toList = "Transaction <censored>".toList ++ after := by
  have hidden : "Transaction <censored>".toList = "Transaction".toList ++ ' ' :: Label.censored := rfl
  have text : (abortError id reason).message.toList =
      "Transaction".toList ++ ' ' :: ((id.text.toList ++ (abortNumbers id ++ before)) ++ ')' :: after) := by
    simp only [toList_abortError, split, List.append_assoc]
  have name : '\n' ∉ id.text.toList := notMem_text (by decide) (by decide) id
  have oneLine := isReason.oneLine
  have last := isReason.getLast?_any
  rw [split, List.mem_append, List.mem_cons, not_or, not_or] at oneLine
  have unbroken : '\n' ∉ id.text.toList ++ (abortNumbers id ++ before) := by
    rw [List.mem_append, List.mem_append, not_or, not_or]
    exact ⟨name, break_notMem_abortNumbers id, oneLine.1⟩
  have marked : Label.abortMarker <:+: (id.text.toList ++ (abortNumbers id ++ before)) ++ ')' :: after :=
    (marker_infix_abortNumbers id).trans ⟨id.text.toList, before ++ ')' :: after, by simp only [List.append_assoc]⟩
  have ends : (')' :: after).getLast?.any (!Text.isBlank ·) = true := by
    rw [split, List.getLast?_append, List.getLast?_cons] at last
    rwa [List.getLast?_cons]
  rw [Label.ofText, String.toList_ofList, text,
    Label.normalize_abort (startsName_text id _) noClose ⟨unbroken, oneLine.2.2⟩ marked ends, hidden,
    List.append_assoc, List.cons_append]

theorem ofText_abortError_ne (isReason : IsReason reason) (closes : ')' ∈ reason.toList) :
    Label.ofText (abortError id reason).message ≠ abortLabel id.node reason := by
  obtain ⟨before, after, split, noClose⟩ := exists_last_close closes
  intro same
  have texts := congrArg String.toList same
  rw [ofText_abortError_of_close id isReason before split noClose, toList_abortLabel, split] at texts
  have lengths := congrArg List.length (List.append_cancel_left texts)
  simp only [List.length_append, List.length_cons] at lengths
  omega

/-! ## Reasons without one -/

theorem abortLabel_inj : abortLabel node reason = abortLabel node' reason' ↔ node = node' ∧ reason = reason' := by
  constructor
  · intro same
    have texts := congrArg String.toList same
    have digits (n : Nat) : ':' ∉ n.repr.toList := Label.notMem_repr (by decide) n
    rw [toList_abortLabel, toList_abortLabel] at texts
    have numbers := List.append_cancel_left (List.append_cancel_left texts)
    obtain ⟨number, rest⟩ := Text.append_cons_inj (digits _) (digits _) numbers
    rw [Nat.toList_repr, Nat.toList_repr] at number
    exact ⟨Nat.succ.inj (Text.decimal_inj number), String.toList_inj.mp (List.cons.inj rest).2⟩
  · rintro ⟨rfl, rfl⟩
    rfl

/-- The label of an abort hides its transaction and nothing else exactly if the reason has no closing parenthesis. Of
any other reason it keeps what stands behind the last one, and not the node; without one, labels tell both. -/
theorem abort_labels_tell_reasons (id id' : TransactionId) {reason reason' : String} (isReason : IsReason reason)
    (isReason' : IsReason reason') :
    let label := Label.ofText (abortError id reason).message
    let label' := Label.ofText (abortError id' reason').message
    (label = abortLabel id.node reason ↔ ')' ∉ reason.toList) ∧
    (∀ before after, reason = before ++ ")" ++ after → ')' ∉ after.toList →
      label = "Transaction <censored>" ++ after) ∧
    (')' ∉ reason.toList → ')' ∉ reason'.toList → (label = label' ↔ id.node = id'.node ∧ reason = reason')) := by
  intro label label'
  refine ⟨⟨fun same closes => ofText_abortError_ne isReason closes same, fun noClose => ?_⟩,
    fun before after split noClose => ?_, fun noClose noClose' => ?_⟩
  · exact ofText_abortError id noClose isReason.oneLine isReason.getLast?_any
  · have close : ")".toList = [')'] := rfl
    refine String.toList_inj.mp ?_
    rw [String.toList_append]
    refine ofText_abortError_of_close id isReason before.toList ?_ noClose
    rw [split, String.toList_append, String.toList_append, close, List.append_assoc]
    rfl
  · have shown : label = abortLabel id.node reason :=
      ofText_abortError id noClose isReason.oneLine isReason.getLast?_any
    have shown' : label' = abortLabel id'.node reason' :=
      ofText_abortError id' noClose' isReason'.oneLine isReason'.getLast?_any
    rw [shown, shown']
    exact abortLabel_inj

/-- A parenthesis that is only opened and a word like a name stay, and so does the node. -/
theorem label_of_openReason :
    Label.ofText (abortError ⟨2, 41, 7⟩ "MTM-3 (node 1").message =
      "Transaction <censored> is aborted on node 3: MTM-3 (node 1" ∧
    Label.ofText (abortError ⟨2, 42, 8⟩ "MTM-3 (node 1").message =
      Label.ofText (abortError ⟨2, 41, 7⟩ "MTM-3 (node 1").message ∧
    Label.ofText (abortError ⟨0, 41, 7⟩ "MTM-3 (node 1").message ≠
      Label.ofText (abortError ⟨2, 41, 7⟩ "MTM-3 (node 1").message := by
  have isReason : IsReason "MTM-3 (node 1" := ⟨by decide, by decide, by decide⟩
  have noClose : ')' ∉ "MTM-3 (node 1".toList := by decide
  have told (node number epoch : Nat) := abort_labels_tell_reasons ⟨node, number, epoch⟩ ⟨2, 41, 7⟩ isReason isReason
  refine ⟨?_, ((told 2 42 8).2.2 noClose noClose).mpr ⟨rfl, rfl⟩, fun same => ?_⟩
  · rw [(told 2 41 7).1.mpr noClose]
    decide +kernel
  · exact absurd (((told 0 41 7).2.2 noClose noClose).mp same).1 (by decide)

/-- A reason that ends in a parenthesis is hidden with its node, so aborts on two nodes with two reasons are one. -/
theorem label_of_closedReason :
    IsReason "disk (full)" ∧ IsReason "peer (gone)" ∧
    Label.ofText (abortError ⟨0, 1, 0⟩ "disk (full)").message = "Transaction <censored>" ∧
    Label.ofText (abortError ⟨0, 1, 0⟩ "disk (full)").message ≠ abortLabel 0 "disk (full)" ∧
    Label.ofText (abortError ⟨2, 7, 1⟩ "peer (gone)").message =
      Label.ofText (abortError ⟨0, 1, 0⟩ "disk (full)").message := by
  have full : IsReason "disk (full)" := ⟨by decide, by decide, by decide⟩
  have gone : IsReason "peer (gone)" := ⟨by decide, by decide, by decide⟩
  have first : Label.ofText (abortError ⟨0, 1, 0⟩ "disk (full)").message = "Transaction <censored>" :=
    String.toList_inj.mp (ofText_abortError_of_close _ full "disk (full".toList rfl List.not_mem_nil)
  have second : Label.ofText (abortError ⟨2, 7, 1⟩ "peer (gone)").message = "Transaction <censored>" :=
    String.toList_inj.mp (ofText_abortError_of_close _ gone "peer (gone".toList rfl List.not_mem_nil)
  exact ⟨full, gone, first, first ▸ by decide +kernel, second.trans first.symm⟩

end LedgerDrill.Cluster
