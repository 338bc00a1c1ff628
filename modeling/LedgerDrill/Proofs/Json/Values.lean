import LedgerDrill.Json.Skip
import LedgerDrill.Proofs.Json.Reading

/-!
JSON values against their grammar. A value that nobody asks for is passed over whatever it is: numbers may be of any
size, strings may hold halves of surrogate pairs, brackets nest to any depth, and blanks stand wherever the grammar
admits them.
-/

namespace LedgerDrill.Json
open Text (isDigit)

/-! ## The grammar -/

def AreBlanks (text : List Char) : Prop := ∀ c ∈ text, isBlank c = true

instance (text : List Char) : Decidable (AreBlanks text) := decidable_of_iff (text.all isBlank = true) List.all_eq_true

def AreDigits (text : List Char) : Prop := text ≠ [] ∧ ∀ c ∈ text, isDigit c = true

instance (text : List Char) : Decidable (AreDigits text) :=
  decidable_of_iff (text ≠ [] ∧ text.all isDigit = true) (and_congr_right fun _ => List.all_eq_true)

/-- The digits in front of the decimal point. Only zero begins with a zero. -/
def IsWhole (text : List Char) : Prop := AreDigits text ∧ (text.head? = some '0' → text = ['0'])

inductive IsFraction : List Char → Prop
  | absent : IsFraction []
  | point {digits : List Char} (areDigits : AreDigits digits) : IsFraction ('.' :: digits)

inductive IsExponent : List Char → Prop
  | absent : IsExponent []
  | power {letter : Char} {sign digits : List Char} (letters : letter = 'e' ∨ letter = 'E')
      (signs : sign = [] ∨ sign = ['+'] ∨ sign = ['-']) (areDigits : AreDigits digits) :
      IsExponent (letter :: (sign ++ digits))

inductive IsNumber : List Char → Prop
  | mk {sign whole fraction exponent : List Char} (signs : sign = [] ∨ sign = ['-']) (isWhole : IsWhole whole)
      (isFraction : IsFraction fraction) (isExponent : IsExponent exponent) :
      IsNumber (sign ++ (whole ++ (fraction ++ exponent)))

/-- A value with the blanks around it. -/
structure Element where
  before : List Char := []
  value : List Char
  after : List Char := []

structure Element.Spaced (e : Element) : Prop where
  before : AreBlanks e.before
  after : AreBlanks e.after

def Element.text (e : Element) : List Char := e.before ++ (e.value ++ e.after)

/-- A member of an object: what stands between the quotes of its name, and its value. -/
structure Pair where
  before : List Char := []
  name : List Char
  behind : List Char := []
  element : Element

structure Pair.Spaced (p : Pair) : Prop where
  before : AreBlanks p.before
  behind : AreBlanks p.behind
  element : p.element.Spaced

def Pair.text (p : Pair) : List Char := p.before ++ '"' :: (p.name ++ '"' :: (p.behind ++ ':' :: p.element.text))

/-- Parts with commas between them, in brackets. -/
inductive Encloses (opening closing : Char) : List (List Char) → List Char → Prop
  | nothing {blanks : List Char} (areBlanks : AreBlanks blanks) :
      Encloses opening closing [] (opening :: (blanks ++ [closing]))
  | parts (part : List Char) (parts : List (List Char)) :
      Encloses opening closing (part :: parts) (writeBetween opening closing (part :: parts))

def words : List (List Char) := [['n', 'u', 'l', 'l'], ['t', 'r', 'u', 'e'], ['f', 'a', 'l', 's', 'e']]

inductive IsValue : List Char → Prop
  | word {text : List Char} (listed : text ∈ words) : IsValue text
  | number {text : List Char} (isNumber : IsNumber text) : IsValue text
  | string {body : List Char} {us : List Nat} (isBody : IsBody body us) : IsValue ('"' :: (body ++ ['"']))
  | list {elements : List Element} {text : List Char} (encloses : Encloses '[' ']' (elements.map Element.text) text)
      (spaced : ∀ e ∈ elements, e.Spaced) (values : ∀ e ∈ elements, IsValue e.value) : IsValue text
  | object {pairs : List Pair} {text : List Char} (encloses : Encloses '\x7b' '\x7d' (pairs.map Pair.text) text)
      (spaced : ∀ p ∈ pairs, p.Spaced) (names : ∀ p ∈ pairs, ∃ us, IsBody p.name us)
      (values : ∀ p ∈ pairs, IsValue p.element.value) : IsValue text

variable {text rest : List Char}

theorem areBlanks_nil : AreBlanks [] := fun _ member => absurd member List.not_mem_nil

theorem Encloses.head {opening closing : Char} {parts : List (List Char)}
    (encloses : Encloses opening closing parts text) : ∃ inner, text = opening :: inner := by
  cases encloses <;> exact ⟨_, rfl⟩

theorem Encloses.inner_eq {opening closing : Char} {part inner : List Char} {parts : List (List Char)}
    (encloses : Encloses opening closing (part :: parts) (opening :: inner)) :
    inner = part ++ (writeRest parts ++ [closing]) := by
  generalize same : opening :: inner = text at encloses
  cases encloses
  rw [writeBetween, intercalate_cons, List.cons_append, List.append_assoc] at same
  exact (List.cons.inj same).2

/-! ## Numbers -/

theorem dropWhile_digits (areDigits : ∀ c ∈ text, isDigit c = true) (outside : rest.head?.any isDigit = false) :
    (text ++ rest).dropWhile isDigit = rest := by
  rw [List.dropWhile_append_of_pos areDigits]
  cases rest with
  | nil => rfl
  | cons c rest => exact List.dropWhile_cons_of_neg (Bool.eq_false_iff.mp outside)

theorem AreDigits.head (areDigits : AreDigits text) (rest : List Char) : (text ++ rest).head?.any isDigit = true := by
  obtain ⟨several, all⟩ := areDigits
  cases text with
  | nil => exact absurd rfl several
  | cons c text => exact all c List.mem_cons_self

theorem skipExponent_append {sign digits : List Char} (signs : sign = [] ∨ sign = ['+'] ∨ sign = ['-'])
    (areDigits : AreDigits digits) (outside : rest.head?.any isDigit = false) :
    skipExponent (sign ++ digits ++ rest) = .ok rest := by
  have unsigned (u : List Char) (same : u = digits ++ rest) :
      (if u.head?.any isDigit then Except.ok (u.dropWhile isDigit) else .error Error.invalidNumber) = .ok rest := by
    rw [same, if_pos (areDigits.head rest), dropWhile_digits areDigits.2 outside]
  unfold skipExponent
  rcases signs with rfl | rfl | rfl
  · refine unsigned _ ?_
    have begins := areDigits.head rest
    rw [List.nil_append]
    split
    · next same => rw [same] at begins; contradiction
    · next same => rw [same] at begins; contradiction
    · rfl
  · exact unsigned _ rfl
  · exact unsigned _ rfl

theorem skip_exponent {exponent : List Char} (isExponent : IsExponent exponent) (stops : Stops rest) :
    (match exponent ++ rest with
      | 'e' :: rest => skipExponent rest
      | 'E' :: rest => skipExponent rest
      | rest => .ok rest) = .ok rest := by
  obtain ⟨-, -, outside, -, noExponent⟩ := not_isDigit_of_stops stops
  cases isExponent with
  | absent =>
      rw [List.nil_append]
      split
      · contradiction
      · contradiction
      · rfl
  | power letters signs areDigits =>
      rcases letters with rfl | rfl
      · exact skipExponent_append signs areDigits outside
      · exact skipExponent_append signs areDigits outside

theorem IsExponent.outside {exponent : List Char} (isExponent : IsExponent exponent) (stops : Stops rest) :
    (exponent ++ rest).head?.any isDigit = false ∧ ∀ tail, exponent ++ rest ≠ '.' :: tail := by
  obtain ⟨-, -, outside, noPoint, -⟩ := not_isDigit_of_stops stops
  cases isExponent with
  | absent => exact ⟨outside, noPoint⟩
  | power letters =>
      rcases letters with rfl | rfl
      · exact ⟨rfl, nofun⟩
      · exact ⟨rfl, nofun⟩

theorem skipNumber_minus {c : Char} (digit : isDigit c = true) (text : List Char) :
    skipNumber ('-' :: c :: text) = skipNumber (c :: text) := by
  conv => rhs; unfold skipNumber
  split
  · next same =>
      cases same
      contradiction
  · rfl

theorem skipNumber_unsigned {c : Char} {digits fraction exponent : List Char}
    (areDigits : ∀ d ∈ c :: digits, isDigit d = true) (leading : c = '0' → digits = [])
    (isFraction : IsFraction fraction) (isExponent : IsExponent exponent) (stops : Stops rest) :
    skipNumber (c :: (digits ++ (fraction ++ (exponent ++ rest)))) = .ok rest := by
  have isFirst := areDigits c List.mem_cons_self
  obtain ⟨outside, noPoint⟩ := isExponent.outside stops
  have tail : (fraction ++ (exponent ++ rest)).head?.any isDigit = false := by
    cases isFraction with
    | absent => exact outside
    | point => rfl
  have left : (c :: (digits ++ (fraction ++ (exponent ++ rest)))).dropWhile isDigit =
      fraction ++ (exponent ++ rest) := dropWhile_digits areDigits tail
  have notLeading : (c = '0' && (digits ++ (fraction ++ (exponent ++ rest))).head?.any isDigit) = false := by
    by_cases zero : c = '0'
    · rw [leading zero, List.nil_append, tail, Bool.and_false]
    · simp [zero]
  unfold skipNumber
  split
  · next same =>
      cases same
      contradiction
  · simp only [isFirst, notLeading, left, Bool.not_true, Bool.false_eq_true, ↓reduceIte]
    cases isFraction with
    | absent =>
        rw [List.nil_append]
        have skipped := skip_exponent isExponent stops
        generalize exponent ++ rest = behind at noPoint skipped ⊢
        split
        · exact absurd rfl (noPoint _)
        · exact skipped
        · exact skipped
        · next noLower noUpper =>
            split at skipped
            · exact absurd rfl (noLower _)
            · exact absurd rfl (noUpper _)
            · exact skipped
    | point fractionDigits =>
        simp only [List.cons_append, fractionDigits.head, dropWhile_digits fractionDigits.2 outside,
          Bool.not_true, Bool.false_eq_true, ↓reduceIte]
        exact skip_exponent isExponent stops

theorem skipNumber_append (isNumber : IsNumber text) (stops : Stops rest) : skipNumber (text ++ rest) = .ok rest := by
  obtain @⟨sign, whole, fraction, exponent, signs, ⟨⟨several, areDigits⟩, leading⟩, isFraction, isExponent⟩ := isNumber
  obtain ⟨c, digits, rfl⟩ := List.exists_cons_of_ne_nil several
  have alone : c = '0' → digits = [] := by
    rintro rfl
    exact (List.cons.inj (leading rfl)).2
  have unsigned := skipNumber_unsigned areDigits alone isFraction isExponent stops
  simp only [List.append_assoc]
  rcases signs with rfl | rfl
  · exact unsigned
  · exact (skipNumber_minus (areDigits c List.mem_cons_self) _).trans unsigned

/-! ## Strings -/

theorem skipChars_hexDigit {c : Char} {digit : Nat} (isDigit : IsHexDigit c digit) (leading : Option Nat)
    (count value : Nat) (rest : List Char) :
    skipChars (.hex leading count value) (c :: rest) =
      if count < 3 then skipChars (.hex leading (count + 1) value) rest else skipChars .plain rest := by
  rw [skipChars, hexDigit?_eq_some_iff.mpr isDigit]

theorem skipChars_piece {piece : List Char} {us : List Nat} (isPiece : IsPiece piece us) (rest : List Char) :
    skipChars .plain (piece ++ rest) = skipChars .plain rest := by
  cases isPiece with
  | itself shown noQuote noBackslash =>
      have noControl : ¬ isControl _ = true := fun control => Nat.not_lt.mpr shown (isControl_eq_true.mp control)
      rw [List.singleton_append, skipChars, if_neg noControl]
      all_goals simp [noQuote, noBackslash]
  | @letter l _ listed =>
      have known := unescape?_eq_some_iff.mpr listed
      have noUnit : l ≠ 'u' := by
        rintro rfl
        cases known
      rw [List.cons_append, List.singleton_append, skipChars, skipChars, known]
      · rfl
      · exact noUnit
      all_goals simp
  | unit told =>
      obtain ⟨first, second, third, fourth⟩ := told
      rw [List.cons_append, List.cons_append, skipChars, skipChars]
      · simp only [List.cons_append, List.nil_append, skipChars_hexDigit first, skipChars_hexDigit second,
          skipChars_hexDigit third, skipChars_hexDigit fourth, Nat.zero_add, Nat.reduceAdd, Nat.reduceLT,
          Nat.lt_irrefl, ↓reduceIte]
      all_goals simp

theorem skipChars_body {body : List Char} {us : List Nat} (isBody : IsBody body us) (rest : List Char) :
    skipChars .plain (body ++ '"' :: rest) = .ok rest := by
  induction isBody with
  | nil => rfl
  | cons first _ ih => rw [List.append_assoc, skipChars_piece first, ih]

/-! ## Values without parts -/

theorem IsNumber.head (isNumber : IsNumber text) : ∃ c tail, text = c :: tail ∧ (c = '-' ∨ isDigit c = true) := by
  obtain ⟨rfl | rfl, ⟨⟨several, areDigits⟩, -⟩, -, -⟩ := isNumber
  · obtain ⟨c, digits, rfl⟩ := List.exists_cons_of_ne_nil several
    exact ⟨c, _, rfl, .inr (areDigits c List.mem_cons_self)⟩
  · exact ⟨'-', _, rfl, .inl rfl⟩

theorem IsValue.head (isValue : IsValue text) :
    ∃ c tail, text = c :: tail ∧ isBlank c = false ∧ c ≠ ']' := by
  cases isValue with
  | word listed =>
      simp only [words, List.mem_cons, List.not_mem_nil, or_false] at listed
      rcases listed with rfl | rfl | rfl <;> exact ⟨_, _, rfl, rfl, by decide⟩
  | string => exact ⟨_, _, rfl, rfl, by decide⟩
  | number isNumber =>
      obtain ⟨c, tail, rfl, signOrDigit⟩ := isNumber.head
      refine ⟨c, tail, rfl, ?_, ?_⟩
      · rcases signOrDigit with rfl | digit
        · rfl
        · exact isBlank_of_isDigit digit
      · rintro rfl
        rcases signOrDigit with same | digit
        · cases same
        · cases digit
  | list encloses =>
      obtain ⟨tail, rfl⟩ := encloses.head
      exact ⟨_, tail, rfl, rfl, by decide⟩
  | object encloses =>
      obtain ⟨tail, rfl⟩ := encloses.head
      exact ⟨_, tail, rfl, rfl, by decide⟩

theorem skipScalar_number (isNumber : IsNumber text) (stops : Stops rest) : skipScalar (text ++ rest) = .ok rest := by
  have skipped := skipNumber_append isNumber stops
  obtain ⟨c, tail, rfl, signOrDigit⟩ := isNumber.head
  rw [List.cons_append] at skipped ⊢
  unfold skipScalar
  split
  · contradiction
  iterate 4
    · next same =>
        cases same
        rcases signOrDigit with same | digit
        · cases same
        · cases digit
  · next same =>
      cases same
      rw [if_pos, skipped]
      rcases signOrDigit with rfl | digit
      · rfl
      · rw [digit, Bool.or_true]

theorem skipScalar_word (listed : text ∈ words) (rest : List Char) : skipScalar (text ++ rest) = .ok rest := by
  rcases List.mem_cons.mp listed with rfl | listed
  · rfl
  · rcases List.mem_cons.mp listed with rfl | listed
    · rfl
    · rw [List.mem_singleton.mp listed]
      rfl

/-! ## Brackets -/

def Bracket.opening : Bracket → Char
  | .list => '['
  | .object => '\x7b'

def Bracket.enter : Bracket → List Char → Except Error (List Char)
  | .list, text => .ok text
  | .object, text => skipKey text

section

variable {bracket : Bracket} {bound : Nat} {outer : List Bracket}

theorem skipParts_open (stack : List Bracket) (rest : List Char) :
    skipParts (bound + 1) .value stack (bracket.opening :: rest) =
      skipParts bound .opened (bracket :: stack) rest := by
  cases bracket <;> rfl

theorem skipParts_close (rest : List Char) :
    skipParts (bound + 1) .ended (bracket :: outer) (bracket.close :: rest) = skipParts bound .ended outer rest := by
  cases bracket <;> rfl

theorem skipParts_comma (rest : List Char) :
    skipParts (bound + 1) .ended (bracket :: outer) (',' :: rest) =
      (do skipParts bound .value (bracket :: outer) (← bracket.enter rest)) := by
  cases bracket <;> rfl

theorem skipParts_blanks {blanks : List Char} (areBlanks : AreBlanks blanks) (rest : List Char) :
    skipParts (bound + 1) .ended (bracket :: outer) (blanks ++ rest) =
      skipParts (bound + 1) .ended (bracket :: outer) rest := by
  rw [skipParts, skipParts, skipBlanks_append areBlanks]

theorem skipParts_nothing {blanks : List Char} (areBlanks : AreBlanks blanks) (rest : List Char) :
    skipParts (bound + 1) .opened (bracket :: outer) (blanks ++ bracket.close :: rest) =
      skipParts bound .ended outer rest := by
  have shown : isBlank bracket.close = false := by cases bracket <;> rfl
  simp only [skipParts, skipBlanks_append areBlanks, skipBlanks_cons shown, if_true]

theorem skipParts_first {c : Char} {tail : List Char} (begins : skipBlanks text = c :: tail)
    (apart : c ≠ bracket.close) : skipParts (bound + 1) .opened (bracket :: outer) text =
      (do skipParts bound .value (bracket :: outer) (← bracket.enter (c :: tail))) := by
  simp only [skipParts, begins, if_neg apart]
  cases bracket <;> rfl

theorem skipParts_value (stack : List Bracket) {input input' : List Char}
    (same : skipBlanks input = skipBlanks input') :
    skipParts bound .value stack input = skipParts bound .value stack input' := by
  cases bound with
  | zero => rfl
  | succ bound => rw [skipParts, skipParts, same]

def Passed (text : List Char) : Prop :=
  ∃ k ≤ 3 * text.length, ∀ bound stack rest, Stops rest →
    skipParts (bound + k) .value stack (text ++ rest) = skipParts bound .ended stack rest

structure Passable (bracket : Bracket) (part : List Char) : Prop where
  begins : ∀ rest, ∃ c tail, skipBlanks (part ++ rest) = c :: tail ∧ c ≠ bracket.close
  passed : ∃ k ≤ 3 * part.length, ∀ bound outer rest input, Stops rest →
    skipBlanks input = skipBlanks (part ++ rest) →
      (do skipParts (bound + 1 + k) .value (bracket :: outer) (← bracket.enter input)) =
        skipParts (bound + 1) .ended (bracket :: outer) rest

theorem stops_close (bracket : Bracket) (rest : List Char) : Stops (bracket.close :: rest) := by
  rintro c tail ⟨⟩
  cases bracket
  · exact .inr (.inr (.inl rfl))
  · exact .inr (.inr (.inr rfl))

theorem stops_writeRest (bracket : Bracket) (parts : List (List Char)) (rest : List Char) :
    Stops (writeRest parts ++ bracket.close :: rest) := by
  cases parts with
  | nil => exact stops_close bracket rest
  | cons part parts => exact fun _ _ same => .inr (.inl (List.cons.inj same).1.symm)

theorem passed_writeRest {parts : List (List Char)} (passable : ∀ part ∈ parts, Passable bracket part) :
    ∃ k ≤ 3 * (writeRest parts).length, ∀ bound outer rest,
      skipParts (bound + 1 + k) .ended (bracket :: outer) (writeRest parts ++ bracket.close :: rest) =
        skipParts bound .ended outer rest := by
  induction parts with
  | nil => exact ⟨0, Nat.zero_le _, fun bound outer rest => skipParts_close rest⟩
  | cons part parts ih =>
      obtain ⟨first, later⟩ := List.forall_mem_cons.mp passable
      obtain ⟨k, small, passed⟩ := first.passed
      obtain ⟨k', small', passed'⟩ := ih later
      refine ⟨k + 1 + k', ?_, fun bound outer rest => ?_⟩
      · simp only [writeRest_cons, List.length_cons, List.length_append]
        omega
      · have rounds : bound + 1 + (k + 1 + k') = bound + k' + 1 + k + 1 := by omega
        have rounds' : bound + k' + 1 = bound + 1 + k' := by omega
        rw [rounds, writeRest_cons, List.cons_append, List.append_assoc, skipParts_comma,
          passed _ _ _ _ (stops_writeRest bracket parts rest) rfl, rounds', passed']

theorem Encloses.passed (bracket : Bracket) {parts : List (List Char)}
    (encloses : Encloses bracket.opening bracket.close parts text)
    (passable : ∀ part ∈ parts, Passable bracket part) : Passed text := by
  cases encloses with
  | nothing areBlanks =>
      refine ⟨2, ?_, fun bound stack rest _ => ?_⟩
      · simp only [List.length_cons, List.length_append]
        omega
      · rw [List.cons_append, List.append_assoc, List.singleton_append, skipParts_open, skipParts_nothing areBlanks]
  | parts part parts =>
      obtain ⟨first, later⟩ := List.forall_mem_cons.mp passable
      obtain ⟨k, small, passed⟩ := first.passed
      obtain ⟨k', small', passed'⟩ := passed_writeRest later
      refine ⟨k + k' + 3, ?_, fun bound stack rest _ => ?_⟩
      · simp only [writeBetween, intercalate_cons, List.length_cons, List.length_append]
        omega
      · obtain ⟨c, tail, begins, apart⟩ := first.begins (writeRest parts ++ bracket.close :: rest)
        have again : skipBlanks (c :: tail) = skipBlanks (part ++ (writeRest parts ++ bracket.close :: rest)) := by
          obtain ⟨blanks, areBlanks, split⟩ := exists_blanks (part ++ (writeRest parts ++ bracket.close :: rest))
          rw [split, skipBlanks_append areBlanks, begins]
        have rounds : bound + (k + k' + 3) = bound + k' + 1 + k + 1 + 1 := by omega
        have rounds' : bound + k' + 1 = bound + 1 + k' := by omega
        have split : writeBetween bracket.opening bracket.close (part :: parts) ++ rest =
            bracket.opening :: (part ++ (writeRest parts ++ bracket.close :: rest)) := by
          simp [writeBetween, intercalate_cons]
        rw [split, rounds, skipParts_open, skipParts_first begins apart,
          passed _ _ _ _ (stops_writeRest bracket parts rest) again, rounds', passed']

end

theorem stops_append {blanks : List Char} (areBlanks : AreBlanks blanks) (stops : Stops rest) :
    Stops (blanks ++ rest) := by
  cases blanks with
  | nil => exact stops
  | cons c blanks =>
      rintro _ _ ⟨⟩
      exact .inl (areBlanks c List.mem_cons_self)

theorem Element.text_append (e : Element) (rest : List Char) :
    e.text ++ rest = e.before ++ (e.value ++ (e.after ++ rest)) := by
  simp [Element.text]

theorem Pair.text_append (p : Pair) (rest : List Char) :
    p.text ++ rest = p.before ++ '"' :: (p.name ++ '"' :: (p.behind ++ ':' :: (p.element.text ++ rest))) := by
  simp [Pair.text]

theorem Element.Spaced.passed {bracket : Bracket} {e : Element} (spaced : e.Spaced) (passed : Passed e.value) :
    ∃ k ≤ 3 * e.text.length, ∀ bound outer rest input, Stops rest → skipBlanks input = skipBlanks (e.text ++ rest) →
      skipParts (bound + 1 + k) .value (bracket :: outer) input =
        skipParts (bound + 1) .ended (bracket :: outer) rest := by
  obtain ⟨k, small, passed⟩ := passed
  refine ⟨k, ?_, fun bound outer rest input stops same => ?_⟩
  · simp only [Element.text, List.length_append]
    omega
  · rw [Element.text_append, skipBlanks_append spaced.before] at same
    rw [skipParts_value _ same, passed _ _ _ (stops_append spaced.after stops), skipParts_blanks spaced.after]

theorem Element.Spaced.passable {e : Element} (spaced : e.Spaced) (isValue : IsValue e.value)
    (passed : Passed e.value) : Passable .list e.text where
  begins rest := by
    obtain ⟨c, tail, split, shown, apart⟩ := isValue.head
    refine ⟨c, tail ++ (e.after ++ rest), ?_, apart⟩
    rw [Element.text_append, skipBlanks_append spaced.before, split, List.cons_append, skipBlanks_cons shown]
  passed := spaced.passed passed

theorem readColon_append {blanks : List Char} (areBlanks : AreBlanks blanks) (rest : List Char) :
    readColon (blanks ++ ':' :: rest) = .ok rest := by
  have colon : isBlank ':' = false := rfl
  simp only [readColon, skipBlanks_append areBlanks, skipBlanks_cons colon]

theorem Pair.Spaced.skipKey {p : Pair} {us : List Nat} (spaced : p.Spaced) (isBody : IsBody p.name us)
    {input : List Char} (same : skipBlanks input = skipBlanks (p.text ++ rest)) : skipKey input = .ok (p.element.text ++ rest) := by
  have quote : isBlank '"' = false := rfl
  rw [Pair.text_append, skipBlanks_append spaced.before, skipBlanks_cons quote] at same
  simp only [Json.skipKey, same, skipChars_body isBody]
  exact readColon_append spaced.behind _

theorem Pair.Spaced.passable {p : Pair} {us : List Nat} (spaced : p.Spaced) (isBody : IsBody p.name us)
    (passed : Passed p.element.value) : Passable .object p.text where
  begins rest := by
    have quote : isBlank '"' = false := rfl
    rw [Pair.text_append, skipBlanks_append spaced.before, skipBlanks_cons quote]
    exact ⟨_, _, rfl, by decide⟩
  passed := by
    obtain ⟨k, small, passed⟩ := spaced.element.passed passed
    refine ⟨k, ?_, fun bound outer rest input stops same => ?_⟩
    · simp only [Pair.text, List.length_append, List.length_cons]
      omega
    · rw [Bracket.enter, spaced.skipKey isBody same]
      exact passed bound outer rest _ stops rfl

theorem passed_scalar (isValue : IsValue text) (noList : text.head? ≠ some '[') (noObject : text.head? ≠ some '\x7b')
    (skipped : ∀ rest, Stops rest → skipScalar (text ++ rest) = .ok rest) : Passed text := by
  obtain ⟨c, tail, rfl, shown, -⟩ := isValue.head
  refine ⟨1, ?_, fun bound stack rest stops => ?_⟩
  · rw [List.length_cons]
    omega
  · have skipped := skipped rest stops
    rw [List.cons_append] at skipped ⊢
    rw [skipParts, skipBlanks_cons shown]
    split
    · next same => exact absurd (congrArg List.head? same) noList
    · next same => exact absurd (congrArg List.head? same) noObject
    · rw [skipped]
      rfl

theorem IsValue.passed (isValue : IsValue text) : Passed text := by
  induction isValue with
  | word listed =>
      refine passed_scalar (.word listed) ?_ ?_ fun rest _ => skipScalar_word listed rest
      all_goals
        simp only [words, List.mem_cons, List.not_mem_nil, or_false] at listed
        rcases listed with rfl | rfl | rfl <;> decide
  | number isNumber =>
      obtain ⟨c, tail, rfl, signOrDigit⟩ := isNumber.head
      refine passed_scalar (.number isNumber) ?_ ?_ fun rest => skipScalar_number isNumber
      all_goals
        rintro ⟨⟩
        revert signOrDigit
        decide
  | @string body _ isBody =>
      refine passed_scalar (.string isBody) (by simp) (by simp) fun rest _ => ?_
      have split : '"' :: (body ++ ['"']) ++ rest = '"' :: (body ++ '"' :: rest) := by simp
      rw [split]
      exact skipChars_body isBody rest
  | list encloses spaced values ih =>
      refine Encloses.passed .list encloses fun part member => ?_
      obtain ⟨e, listed, rfl⟩ := List.mem_map.mp member
      exact (spaced e listed).passable (values e listed) (ih e listed)
  | object encloses spaced names values ih =>
      refine Encloses.passed .object encloses fun part member => ?_
      obtain ⟨p, listed, rfl⟩ := List.mem_map.mp member
      obtain ⟨us, isBody⟩ := names p listed
      exact (spaced p listed).passable isBody (ih p listed)

/-- Every value is passed over, with the blanks in front of it. -/
theorem skipValue_append (isValue : IsValue text) {blanks : List Char} (areBlanks : AreBlanks blanks)
    (stops : Stops rest) : skipValue (blanks ++ (text ++ rest)) = .ok rest := by
  obtain ⟨k, small, passed⟩ := isValue.passed
  obtain ⟨spare, enough⟩ : ∃ spare, 3 * (blanks ++ (text ++ rest)).length + 3 = spare + 1 + k := by
    refine ⟨3 * (blanks ++ (text ++ rest)).length + 2 - k, ?_⟩
    simp only [List.length_append]
    omega
  have same : skipBlanks (blanks ++ (text ++ rest)) = skipBlanks (text ++ rest) := skipBlanks_append areBlanks _
  rw [skipValue, enough, skipParts_value _ same, passed _ _ _ stops]
  rfl

theorem Pair.Spaced.skipMember {p : Pair} (spaced : p.Spaced) (isValue : IsValue p.element.value) (stops : Stops rest) :
    skipMember (p.behind ++ ':' :: (p.element.text ++ rest)) = .ok (p.element.after ++ rest) := by
  rw [Json.skipMember, readColon_append spaced.behind, Element.text_append]
  exact skipValue_append isValue spaced.element.before (stops_append spaced.element.after stops)

end LedgerDrill.Json
