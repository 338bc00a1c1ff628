import LedgerDrill.Proofs.Text.Words
import LedgerDrill.Text.Quoted

namespace LedgerDrill.Text

def IsVisible (c : Char) : Prop := 0x20 ≤ c.toNat

instance (c : Char) : Decidable (IsVisible c) := inferInstanceAs (Decidable (0x20 ≤ c.toNat))

theorem isVisible_of_all {text : List Char} (all : (text.all fun c => decide (IsVisible c)) = true) :
    ∀ c ∈ text, IsVisible c := fun c member => of_decide_eq_true (List.all_eq_true.mp all c member)

theorem isVisible_digitChar (d : Nat) : IsVisible d.digitChar := by
  by_cases small : d < 16
  · have all : ∀ d < 16, IsVisible d.digitChar := by decide
    exact all d small
  · rw [Nat.digitChar_eq_star.mpr (Nat.le_of_not_lt small)]
    decide

theorem isVisible_toDigits {base n : Nat} (several : 1 < base) : ∀ c ∈ Nat.toDigits base n, IsVisible c := by
  intro c member
  obtain ⟨d, -, rfl⟩ := mem_toDigits several member
  exact isVisible_digitChar d

namespace Quoted

def letters : List (Char × Char) :=
  [('0', '\x00'), ('t', '\t'), ('r', '\r'), ('n', '\n'), ('\\', '\\'), ('"', '"')]

inductive Writes (c : Char) : List Char → Prop
  | itself (visible : IsVisible c) (noQuote : c ≠ '"') (noBackslash : c ≠ '\\') : Writes c [c]
  | letter {l : Char} (listed : (l, c) ∈ letters) : Writes c ['\\', l]
  | number : Writes c (byNumber c)

theorem writes_encodeChar (c : Char) : Writes c (encodeChar c) := by
  unfold encodeChar
  split
  -- The characters with a letter.
  iterate 6 exact .letter (by decide)
  · next noBackslash noQuote =>
      split
      · next shown =>
          refine .itself ?_ noQuote noBackslash
          simp only [Bool.and_eq_true, isShown] at shown
          have visible := shown.2
          split at visible
          · simpa [IsVisible] using visible
          · unfold IsVisible
            omega
      · exact .number

variable {c d : Char} {piece piece' rest rest' text text' : List Char}

theorem Writes.isVisible (writes : Writes c piece) : ∀ d ∈ piece, IsVisible d := by
  cases writes with
  | itself visible => exact List.forall_mem_singleton.mpr visible
  | @letter l listed =>
      have all : ∀ entry ∈ letters, IsVisible entry.1 := by decide
      exact List.forall_mem_cons.mpr ⟨by decide, List.forall_mem_singleton.mpr (all _ listed)⟩
  | number =>
      simp only [byNumber, List.mem_append]
      rintro d ((opening | digit) | closing)
      · exact isVisible_of_all (by decide) d opening
      · exact isVisible_toDigits (by decide) d digit
      · rw [List.mem_singleton.mp closing]
        decide

theorem Writes.head (writes : Writes c piece) : ∃ first more, piece = first :: more ∧ first ≠ '"' := by
  cases writes with
  | itself _ noQuote => exact ⟨c, [], rfl, noQuote⟩
  | @letter l => exact ⟨'\\', [l], rfl, by decide⟩
  | number => exact ⟨'\\', _, rfl, by decide⟩

theorem Writes.append_inj (writes : Writes c piece) (writes' : Writes d piece')
    (same : piece ++ rest = piece' ++ rest') : c = d ∧ rest = rest' := by
  have noLetter : ∀ entry ∈ letters, entry.1 ≠ 'u' := by decide
  have distinct : ∀ entry ∈ letters, ∀ other ∈ letters, entry.1 = other.1 → entry.2 = other.2 := by decide
  have closing {c : Char} : '\x7d' ∉ Nat.toDigits 16 c.toNat := by
    intro member
    obtain ⟨digit, small, same⟩ := mem_toDigits (by decide) member
    have none : ∀ digit < 16, '\x7d' ≠ digit.digitChar := by decide
    exact none digit small same
  cases writes with
  | itself _ _ noBackslash =>
      cases writes' with
      | itself => exact List.cons.inj same
      | letter | number => exact absurd (List.cons.inj same).1 noBackslash
  | letter listed =>
      cases writes' with
      | itself _ _ noBackslash => exact absurd (List.cons.inj same).1.symm noBackslash
      | letter listed' =>
          obtain ⟨first, rests⟩ := List.cons.inj (List.cons.inj same).2
          exact ⟨distinct _ listed _ listed' first, rests⟩
      | number => exact absurd (List.cons.inj (List.cons.inj same).2).1 (noLetter _ listed)
  | number =>
      cases writes' with
      | itself _ _ noBackslash => exact absurd (List.cons.inj same).1.symm noBackslash
      | letter listed' => exact absurd (List.cons.inj (List.cons.inj same).2).1.symm (noLetter _ listed')
      | number =>
          simp only [byNumber, List.append_assoc, List.cons_append, List.nil_append, List.cons.injEq, true_and] at same
          obtain ⟨digits, rests⟩ := append_cons_inj closing closing same
          exact ⟨Char.toNat_inj.mp (toDigits_inj (by decide) (by decide) digits), rests⟩

theorem isVisible_encode (text : List Char) : ∀ c ∈ encode text, IsVisible c := by
  have quote : IsVisible '"' := by decide
  intro c member
  simp only [encode, List.mem_append, List.mem_cons, List.mem_flatMap, List.not_mem_nil, or_false] at member
  rcases member with (rfl | ⟨d, -, written⟩) | rfl
  · exact quote
  · exact (writes_encodeChar d).isVisible c written
  · exact quote

/-- A quoted text ends at its closing quote, wherever else a quote may stand. -/
theorem encode_append_inj (same : encode text ++ rest = encode text' ++ rest') : text = text' ∧ rest = rest' := by
  have body {text text' : List Char}
      (same : text.flatMap encodeChar ++ '"' :: rest = text'.flatMap encodeChar ++ '"' :: rest') :
      text = text' ∧ rest = rest' := by
    induction text generalizing text' with
    | nil =>
        cases text' with
        | nil => exact ⟨rfl, (List.cons.inj same).2⟩
        | cons d text' =>
            obtain ⟨first, more, split, noQuote⟩ := (writes_encodeChar d).head
            rw [List.flatMap_cons, split] at same
            exact absurd (List.cons.inj same).1.symm noQuote
    | cons c text ih =>
        cases text' with
        | nil =>
            obtain ⟨first, more, split, noQuote⟩ := (writes_encodeChar c).head
            rw [List.flatMap_cons, split] at same
            exact absurd (List.cons.inj same).1 noQuote
        | cons d text' =>
            rw [List.flatMap_cons, List.flatMap_cons, List.append_assoc, List.append_assoc] at same
            obtain ⟨rfl, later⟩ := (writes_encodeChar c).append_inj (writes_encodeChar d) same
            obtain ⟨rfl, rests⟩ := ih later
            exact ⟨rfl, rests⟩
  simp only [encode, List.cons_append, List.append_assoc, List.nil_append] at same
  exact body (List.cons.inj same).2

end Quoted

end LedgerDrill.Text
