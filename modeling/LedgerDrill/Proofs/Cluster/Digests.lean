import LedgerDrill.Cluster.Basic
import LedgerDrill.Proofs.Cluster.Errors
import LedgerDrill.Proofs.Text.Words

namespace LedgerDrill

namespace Text

theorem toList_loop (bytes : ByteArray) (i : Nat) (before : List UInt8) :
    ByteArray.toList.loop bytes i before = before.reverse ++ bytes.data.toList.drop i := by
  fun_induction ByteArray.toList.loop bytes i before with
  | case1 i before inside ih =>
      have bound : i < bytes.data.toList.length := by simpa using inside
      have byte : bytes.get! i = bytes.data.toList[i] := by
        change bytes.data[i]! = _
        simp [inside]
      rw [ih, List.drop_eq_getElem_cons bound, byte, List.reverse_cons, List.append_assoc, List.singleton_append]
  | case2 i before outside =>
      have all : bytes.data.toList.length ≤ i := by simpa using outside
      rw [List.drop_eq_nil_of_le all, List.append_nil]

theorem bytes_inj {text text' : List Char}
    (same : (String.ofList text).toUTF8.toList = (String.ofList text').toUTF8.toList) : text = text' := by
  have data (bytes : ByteArray) : bytes.toList = bytes.data.toList := toList_loop bytes 0 []
  rw [data, data] at same
  exact String.ofList_inj.mp (String.toByteArray_inj.mp (ByteArray.ext (Array.toList_inj.mp same)))

end Text

namespace Json

theorem writeInt_append_inj {n m : Int} {rest rest' : List Char} (outside : rest.head?.any Text.isDigit = false)
    (outside' : rest'.head?.any Text.isDigit = false) (same : writeInt n ++ rest = writeInt m ++ rest') :
    n = m ∧ rest = rest' := by
  -- A sign is no digit, so it does not begin a number without one.
  have unsigned {k : Nat} {word rest : List Char} : '-' :: word ≠ Text.decimal k ++ rest := by
    intro same
    cases digits : Text.decimal k with
    | nil => exact Nat.toDigits_ne_nil digits
    | cons c more =>
        have digit := Text.isDigit_of_mem_decimal (digits ▸ List.mem_cons_self : c ∈ Text.decimal k)
        rw [digits] at same
        rw [← (List.cons.inj same).1] at digit
        contradiction
  cases n with
  | ofNat n =>
      cases m with
      | ofNat m =>
          obtain ⟨numbers, rests⟩ := Text.decimal_append_inj outside outside' same
          exact ⟨congrArg Int.ofNat numbers, rests⟩
      | negSucc m => exact absurd same.symm unsigned
  | negSucc n =>
      cases m with
      | ofNat m => exact absurd same unsigned
      | negSucc m =>
          obtain ⟨numbers, rests⟩ := Text.decimal_append_inj outside outside' (List.cons.inj same).2
          exact ⟨congrArg Int.negSucc (Nat.succ.inj numbers), rests⟩

end Json

namespace Sha256

def Collide (message message' : List UInt8) : Prop := message ≠ message' ∧ digest message = digest message'

instance (message message' : List UInt8) : Decidable (Collide message message') :=
  inferInstanceAs (Decidable (message ≠ message' ∧ digest message = digest message'))

theorem not_collide_self (message : List UInt8) : ¬Collide message message := fun collide => collide.1 rfl

theorem Collide.symm {message message' : List UInt8} (collide : Collide message message') : Collide message' message :=
  ⟨collide.1.symm, collide.2.symm⟩

theorem hex_inj {message message' : List UInt8} (same : hex message = hex message') :
    digest message = digest message' := by
  have texts := String.ofList_inj.mp same
  generalize digest message = bytes at texts
  generalize digest message' = bytes' at texts
  induction bytes generalizing bytes' with
  | nil =>
      cases bytes' with
      | nil => rfl
      | cons byte' bytes' => cases texts
  | cons byte bytes ih =>
      cases bytes' with
      | nil => cases texts
      | cons byte' bytes' =>
          obtain ⟨high, rest⟩ := List.cons.inj texts
          obtain ⟨low, later⟩ := List.cons.inj rest
          have small := byte.toNat_lt
          have small' := byte'.toNat_lt
          have quotients := Text.digitChar_inj (by omega) (by omega) high
          have remainders := Text.digitChar_inj (by omega) (by omega) low
          have equal : byte = byte' := UInt8.toNat_inj.mp (by omega)
          rw [equal, ih _ later]

end Sha256

namespace Cluster

namespace Accounts

def bytes (accounts : Accounts) : List UInt8 := (String.ofList accounts.text).toUTF8.toList

theorem rowText_append_inj {uid uid' : Nat} {balance balance' : Int64} {rest rest' : List Char}
    (same : rowText uid balance ++ rest = rowText uid' balance' ++ rest') :
    uid = uid' ∧ balance = balance' ∧ rest = rest' := by
  simp only [rowText, List.cons_append, List.append_assoc, List.nil_append, List.cons.injEq, true_and] at same
  obtain ⟨uids, behind⟩ := Text.decimal_append_inj rfl rfl same
  obtain ⟨balances, rests⟩ := Json.writeInt_append_inj rfl rfl (List.cons.inj (List.cons.inj behind).2).2
  exact ⟨uids, Int64.toInt_inj.mp balances, (List.cons.inj (List.cons.inj rests).2).2⟩

theorem text_inj {a b : Accounts} (same : a.text = b.text) : a = b := by
  obtain ⟨entries, ascending⟩ := a
  obtain ⟨entries', ascending'⟩ := b
  have equal : entries = entries' := by
    simp only [text] at same
    clear ascending ascending'
    induction entries generalizing entries' with
    | nil =>
        cases entries' with
        | nil => rfl
        | cons row' entries' => cases same
    | cons row entries ih =>
        cases entries' with
        | nil => cases same
        | cons row' entries' =>
            obtain ⟨uids, balances, rests⟩ := rowText_append_inj same
            rw [Prod.ext uids balances, ih entries' rests]
  subst equal
  rfl

theorem bytes_eq_iff {a b : Accounts} : a.bytes = b.bytes ↔ a = b :=
  ⟨fun same => text_inj (Text.bytes_inj same), congrArg bytes⟩

theorem digest_eq_iff {a b : Accounts} (apart : ¬Sha256.Collide a.bytes b.bytes) : a.digest = b.digest ↔ a = b := by
  refine ⟨fun same => bytes_eq_iff.mp ?_, congrArg digest⟩
  by_contra differ
  exact apart ⟨differ, Sha256.hex_inj same⟩

end Accounts

end Cluster

end LedgerDrill
