import LedgerDrill.Text.Basic
import Mathlib.Data.List.TakeWhile

namespace LedgerDrill.Text

variable {word word' rest rest' : List Char} {c : Char} {n m base : Nat}

theorem append_cons_inj (absent : c ∉ word) (absent' : c ∉ word')
    (same : word ++ c :: rest = word' ++ c :: rest') : word = word' ∧ rest = rest' := by
  induction word generalizing word' with
  | nil =>
      cases word' with
      | nil => exact ⟨rfl, (List.cons.inj same).2⟩
      | cons d word' => exact absurd ((List.cons.inj same).1 ▸ List.mem_cons_self) absent'
  | cons d word ih =>
      cases word' with
      | nil => exact absurd ((List.cons.inj same).1 ▸ List.mem_cons_self) absent
      | cons d' word' =>
          obtain ⟨rfl, later⟩ := List.cons.inj same
          obtain ⟨rfl, tails⟩ := ih (List.not_mem_of_not_mem_cons absent) (List.not_mem_of_not_mem_cons absent') later
          exact ⟨rfl, tails⟩

/-- Two words of a class end in the same place if what follows each begins with a character outside the class. -/
theorem append_inj_of_class {p : Char → Bool} (inside : ∀ c ∈ word, p c = true) (inside' : ∀ c ∈ word', p c = true)
    (outside : rest.head?.any p = false) (outside' : rest'.head?.any p = false)
    (same : word ++ rest = word' ++ rest') : word = word' ∧ rest = rest' := by
  have taken {rest : List Char} (outside : rest.head?.any p = false) : rest.takeWhile p = [] := by
    cases rest with
    | nil => rfl
    | cons c rest => exact List.takeWhile_cons_of_neg (Bool.eq_false_iff.mp outside)
  have words := congrArg (List.takeWhile p) same
  rw [List.takeWhile_append_of_pos inside, List.takeWhile_append_of_pos inside', taken outside, taken outside',
    List.append_nil, List.append_nil] at words
  subst words
  exact ⟨rfl, List.append_cancel_left same⟩

theorem intercalate_cons (separator : List Char) (words : List (List Char)) :
    separator.intercalate (word :: words) = word ++ words.flatMap (separator ++ ·) := by
  induction words generalizing word with
  | nil => rw [List.intercalate_singleton, List.flatMap_nil, List.append_nil]
  | cons next words ih =>
      rw [List.intercalate_cons_cons, ih, List.flatMap_cons, List.append_assoc, List.append_assoc]

/-! ## Digits -/

theorem mem_toDigits (several : 1 < base) (member : c ∈ Nat.toDigits base n) : ∃ d < base, c = d.digitChar := by
  induction n using Nat.strongRecOn with
  | ind n ih =>
      by_cases small : n < base
      · rw [Nat.toDigits_of_lt_base small] at member
        exact ⟨n, small, List.mem_singleton.mp member⟩
      · rw [Nat.toDigits_of_base_le several (Nat.le_of_not_lt small), List.mem_append] at member
        rcases member with before | last
        · exact ih (n / base) (Nat.div_lt_self (by omega) several) before
        · exact ⟨n % base, Nat.mod_lt n (by omega), List.mem_singleton.mp last⟩

theorem digitChar_inj (small : n < 16) (small' : m < 16) (same : n.digitChar = m.digitChar) : n = m := by
  have all : ∀ n < 16, ∀ m < 16, n.digitChar = m.digitChar → n = m := by decide
  exact all n small m small' same

theorem toDigits_append_ne_singleton : Nat.toDigits base n ++ [c] ≠ [d] := by
  intro same
  have lengths := congrArg List.length same
  simp [Nat.toDigits_ne_nil] at lengths

theorem toDigits_inj (several : 1 < base) (hexadecimal : base ≤ 16)
    (same : Nat.toDigits base n = Nat.toDigits base m) : n = m := by
  induction n using Nat.strongRecOn generalizing m with
  | ind n ih =>
      by_cases small : n < base
      · by_cases small' : m < base
        · rw [Nat.toDigits_of_lt_base small, Nat.toDigits_of_lt_base small'] at same
          exact digitChar_inj (by omega) (by omega) (List.singleton_inj.mp same)
        · rw [Nat.toDigits_of_lt_base small, Nat.toDigits_of_base_le several (Nat.le_of_not_lt small')] at same
          exact absurd same.symm toDigits_append_ne_singleton
      · rw [Nat.toDigits_of_base_le several (Nat.le_of_not_lt small)] at same
        by_cases small' : m < base
        · rw [Nat.toDigits_of_lt_base small'] at same
          exact absurd same toDigits_append_ne_singleton
        · rw [Nat.toDigits_of_base_le several (Nat.le_of_not_lt small')] at same
          obtain ⟨before, last⟩ := List.append_inj' same rfl
          have quotients := ih (n / base) (Nat.div_lt_self (by omega) several) before
          have remainder (k : Nat) : k % base < 16 := Nat.lt_of_lt_of_le (Nat.mod_lt k (by omega)) hexadecimal
          have remainders := digitChar_inj (remainder n) (remainder m) (List.singleton_inj.mp last)
          rw [← Nat.div_add_mod n base, ← Nat.div_add_mod m base, quotients, remainders]

theorem decimal_inj (same : decimal n = decimal m) : n = m := toDigits_inj (by decide) (by decide) same

theorem isDigit_of_mem_decimal (member : c ∈ decimal n) : isDigit c = true := by
  have all : ∀ d < 10, isDigit d.digitChar = true := by decide
  obtain ⟨d, small, rfl⟩ := mem_toDigits (by decide) member
  exact all d small

theorem decimal_append_inj (outside : rest.head?.any isDigit = false) (outside' : rest'.head?.any isDigit = false)
    (same : decimal n ++ rest = decimal m ++ rest') : n = m ∧ rest = rest' := by
  obtain ⟨digits, tails⟩ := append_inj_of_class (fun _ => isDigit_of_mem_decimal) (fun _ => isDigit_of_mem_decimal)
    outside outside' same
  exact ⟨decimal_inj digits, tails⟩

end LedgerDrill.Text
