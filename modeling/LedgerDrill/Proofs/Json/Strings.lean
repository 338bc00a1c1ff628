import LedgerDrill.Json.Strings

namespace LedgerDrill.Json

/-! ## The grammar -/

def IsHexDigit (c : Char) (value : Nat) : Prop :=
  value < 16 ∧ (c = value.digitChar ∨ c = value.digitChar.toUpper)

instance (c : Char) (value : Nat) : Decidable (IsHexDigit c value) := inferInstanceAs (Decidable (_ ∧ _))

/-- Four hexadecimal digits that tell a number of 16 bits. -/
inductive IsUnit : List Char → Nat → Prop
  | mk {a b c d : Char} {w x y z : Nat} (first : IsHexDigit a w) (second : IsHexDigit b x) (third : IsHexDigit c y)
      (fourth : IsHexDigit d z) : IsUnit [a, b, c, d] (16 * (16 * (16 * w + x) + y) + z)

/-- The 16-bit units of a character: one, or a pair of surrogates. -/
def units (c : Char) : List Nat :=
  if c.toNat < 0x10000 then [c.toNat]
  else [0xD800 + (c.toNat - 0x10000) / 0x400, 0xDC00 + (c.toNat - 0x10000) % 0x400]

def shorthands : List (Char × Char) :=
  [('"', '"'), ('\\', '\\'), ('/', '/'), ('b', '\x08'), ('f', '\x0c'), ('n', '\n'), ('r', '\r'), ('t', '\t')]

/-- What stands inside a string for 16-bit units: for those of a character, or for one that is told by number. -/
inductive IsPiece : List Char → List Nat → Prop
  | itself {c : Char} (shown : 0x20 ≤ c.toNat) (noQuote : c ≠ '"') (noBackslash : c ≠ '\\') : IsPiece [c] (units c)
  | letter {l c : Char} (listed : (l, c) ∈ shorthands) : IsPiece ['\\', l] (units c)
  | unit {digits : List Char} {u : Nat} (told : IsUnit digits u) : IsPiece ('\\' :: 'u' :: digits) [u]

/-- What may stand between the quotes of a string, and the units that it tells. They need not be those of a text. -/
inductive IsBody : List Char → List Nat → Prop
  | nil : IsBody [] []
  | cons {piece body : List Char} {us vs : List Nat} (first : IsPiece piece us) (rest : IsBody body vs) :
      IsBody (piece ++ body) (us ++ vs)

/-- What spells a character inside a string. Half of a pair of surrogates spells none. -/
inductive Spells : List Char → Char → Prop
  | itself {c : Char} (shown : 0x20 ≤ c.toNat) (noQuote : c ≠ '"') (noBackslash : c ≠ '\\') : Spells [c] c
  | letter {l c : Char} (listed : (l, c) ∈ shorthands) : Spells ['\\', l] c
  | unit {c : Char} {digits : List Char} {u : Nat} (told : IsUnit digits u) (encodes : units c = [u]) :
      Spells ('\\' :: 'u' :: digits) c
  | pair {c : Char} {high low : List Char} {h l : Nat} (leading : IsUnit high h) (trailing : IsUnit low l)
      (encodes : units c = [h, l]) : Spells ('\\' :: 'u' :: (high ++ '\\' :: 'u' :: low)) c

/-- What stands between the quotes of a string, and the text that it denotes. -/
inductive Denotes : List Char → List Char → Prop
  | nil : Denotes [] []
  | cons {piece body text : List Char} {c : Char} (first : Spells piece c) (rest : Denotes body text) :
      Denotes (piece ++ body) (c :: text)

/-! ## Hexadecimal digits -/

theorem hexDigit?_eq_some_iff {c : Char} {value : Nat} : hexDigit? c = some value ↔ IsHexDigit c value := by
  constructor
  · intro read
    have small : c.toNat < 128 := by
      have bound {a b : Char} (le : a ≤ b) : a.toNat ≤ b.toNat := UInt32.le_iff_toNat_le.mp le
      unfold hexDigit? at read
      split at read
      · next range => exact Nat.lt_of_le_of_lt (bound range.2) (by decide)
      · split at read
        · next range => exact Nat.lt_of_le_of_lt (bound range.2) (by decide)
        · split at read
          · next range => exact Nat.lt_of_le_of_lt (bound range.2) (by decide)
          · cases read
    have all : ∀ n < 128, ∀ value ∈ hexDigit? (Char.ofNat n), value < 16 ∧
        (Char.ofNat n = value.digitChar ∨ Char.ofNat n = value.digitChar.toUpper) := by decide +kernel
    have known := all c.toNat small value
    rw [Char.ofNat_toNat] at known
    exact known read
  · have all : ∀ value < 16, hexDigit? value.digitChar = some value ∧
        hexDigit? value.digitChar.toUpper = some value := by decide
    rintro ⟨small, rfl | rfl⟩
    · exact (all value small).1
    · exact (all value small).2

theorem IsUnit.lt {digits : List Char} {u : Nat} (told : IsUnit digits u) : u < 0x10000 := by
  obtain ⟨⟨w, -⟩, ⟨x, -⟩, ⟨y, -⟩, ⟨z, -⟩⟩ := told
  omega

/-! ## Units -/

theorem units_ofNat {u : Nat} (small : u < 0x10000) (noLeading : isLeading u = false)
    (noTrailing : isTrailing u = false) : units (Char.ofNat u) = [u] := by
  simp only [isLeading, isTrailing, Bool.and_eq_false_iff, decide_eq_false_iff_not] at noLeading noTrailing
  have valid : u.isValidChar := by
    unfold Nat.isValidChar
    omega
  have same : (Char.ofNat u).toNat = u := by
    rw [Char.ofNat, dif_pos valid]
    rfl
  rw [units, same, if_pos small]

theorem units_ofPair {h l : Nat} (leading : isLeading h = true) (trailing : isTrailing l = true) :
    units (ofPair h l) = [h, l] := by
  simp only [isLeading, isTrailing, Bool.and_eq_true, decide_eq_true_eq] at leading trailing
  have valid : ((h - 0xD800) * 0x400 + (l - 0xDC00) + 0x10000).isValidChar := by
    unfold Nat.isValidChar
    omega
  have same : (ofPair h l).toNat = (h - 0xD800) * 0x400 + (l - 0xDC00) + 0x10000 := by
    rw [ofPair, Char.ofNat, dif_pos valid]
    rfl
  have high : 0xD800 + ((h - 0xD800) * 0x400 + (l - 0xDC00) + 0x10000 - 0x10000) / 0x400 = h := by omega
  have low : 0xDC00 + ((h - 0xD800) * 0x400 + (l - 0xDC00) + 0x10000 - 0x10000) % 0x400 = l := by omega
  rw [units, same, if_neg (by omega), high, low]

theorem valid_toNat (c : Char) : c.toNat < 0xD800 ∨ 0xDFFF < c.toNat ∧ c.toNat < 0x110000 := c.valid

theorem of_units_eq_singleton {c : Char} {u : Nat} (encodes : units c = [u]) :
    Char.ofNat u = c ∧ isLeading u = false ∧ isTrailing u = false := by
  have valid := valid_toNat c
  unfold units at encodes
  split at encodes
  · cases encodes
    refine ⟨Char.ofNat_toNat c, ?_⟩
    simp only [isLeading, isTrailing, Bool.and_eq_false_iff, decide_eq_false_iff_not]
    omega
  · cases encodes

theorem of_units_eq_pair {c : Char} {h l : Nat} (encodes : units c = [h, l]) :
    ofPair h l = c ∧ isLeading h = true ∧ isTrailing l = true := by
  have valid := valid_toNat c
  unfold units at encodes
  split at encodes
  · cases encodes
  · simp only [List.cons.injEq, and_true] at encodes
    obtain ⟨rfl, rfl⟩ := encodes
    have together : (0xD800 + (c.toNat - 0x10000) / 0x400 - 0xD800) * 0x400 +
        (0xDC00 + (c.toNat - 0x10000) % 0x400 - 0xDC00) + 0x10000 = c.toNat := by omega
    rw [ofPair, together]
    refine ⟨Char.ofNat_toNat c, ?_⟩
    simp only [isLeading, isTrailing, Bool.and_eq_true, decide_eq_true_eq]
    omega

theorem units_cases (c : Char) :
    (∃ u, units c = [u] ∧ Char.ofNat u = c ∧ isLeading u = false ∧ isTrailing u = false) ∨
      ∃ h l, units c = [h, l] ∧ ofPair h l = c ∧ isLeading h = true ∧ isTrailing l = true := by
  by_cases small : c.toNat < 0x10000
  · have one : units c = [c.toNat] := if_pos small
    exact Or.inl ⟨_, one, of_units_eq_singleton one⟩
  · have two : units c = [_, _] := if_neg small
    exact Or.inr ⟨_, _, two, of_units_eq_pair two⟩

theorem isTrailing_of_isLeading {u : Nat} (leading : isLeading u = true) : isTrailing u = false := by
  simp only [isLeading, isTrailing, Bool.and_eq_true, Bool.and_eq_false_iff, decide_eq_true_eq,
    decide_eq_false_iff_not] at leading ⊢
  omega

theorem units_append_inj {c c' : Char} {us us' : List Nat} (same : units c ++ us = units c' ++ us') :
    c = c' ∧ us = us' := by
  -- Whether a second unit belongs to the character is told by the first one.
  rcases units_cases c with ⟨u, one, decoded, noLeading, -⟩ | ⟨h, l, two, decoded, leading, -⟩
  · rcases units_cases c' with ⟨u', one', decoded', -⟩ | ⟨h', l', two', -, leading', -⟩
    · rw [one, one'] at same
      cases same
      exact ⟨decoded.symm.trans decoded', rfl⟩
    · rw [one, two'] at same
      cases same
      rw [noLeading] at leading'
      cases leading'
  · rcases units_cases c' with ⟨u', one', -, noLeading', -⟩ | ⟨h', l', two', decoded', -⟩
    · rw [two, one'] at same
      cases same
      rw [leading] at noLeading'
      cases noLeading'
    · rw [two, two'] at same
      cases same
      exact ⟨decoded.symm.trans decoded', rfl⟩

theorem isTrailing_units {c : Char} {u : Nat} {us vs : List Nat} (same : units c ++ us = u :: vs) :
    isTrailing u = false := by
  rcases units_cases c with ⟨u', one, -, -, noTrailing⟩ | ⟨h, l, two, -, leading, -⟩
  · rw [one] at same
    cases same
    exact noTrailing
  · rw [two] at same
    cases same
    exact isTrailing_of_isLeading leading

theorem units_ne_nil (c : Char) : units c ≠ [] := by
  rcases units_cases c with ⟨u, one, -⟩ | ⟨h, l, two, -⟩
  · simp [one]
  · simp [two]

/-! ## Texts among units -/

theorem IsBody.append {body body' : List Char} {us us' : List Nat} (first : IsBody body us)
    (second : IsBody body' us') : IsBody (body ++ body') (us ++ us') := by
  induction first with
  | nil => exact second
  | cons piece _ ih =>
      rw [List.append_assoc, List.append_assoc]
      exact .cons piece ih

theorem IsPiece.isBody {piece : List Char} {us : List Nat} (isPiece : IsPiece piece us) : IsBody piece us := by
  have alone := IsBody.cons isPiece .nil
  rwa [List.append_nil, List.append_nil] at alone

theorem Spells.isBody {piece : List Char} {c : Char} (spells : Spells piece c) : IsBody piece (units c) := by
  cases spells with
  | itself shown noQuote noBackslash => exact (IsPiece.itself shown noQuote noBackslash).isBody
  | letter listed => exact (IsPiece.letter listed).isBody
  | unit told encodes =>
      rw [encodes]
      exact (IsPiece.unit told).isBody
  | pair leading trailing encodes =>
      rw [encodes]
      exact (IsPiece.unit leading).isBody.append (IsPiece.unit trailing).isBody

theorem Denotes.isBody {body text : List Char} (denotes : Denotes body text) : IsBody body (text.flatMap units) := by
  induction denotes with
  | nil => exact .nil
  | cons first _ ih => exact first.isBody.append ih

theorem IsPiece.ne_nil {piece : List Char} {us : List Nat} (isPiece : IsPiece piece us) : us ≠ [] := by
  cases isPiece with
  | itself => exact units_ne_nil _
  | letter => exact units_ne_nil _
  | unit => exact List.cons_ne_nil _ _

theorem IsBody.eq_nil {body : List Char} (isBody : IsBody body []) : body = [] := by
  generalize none : ([] : List Nat) = us at isBody
  cases isBody with
  | nil => rfl
  | cons first => exact absurd (List.append_eq_nil_iff.mp none.symm).1 first.ne_nil

theorem IsBody.exists_trailing {body : List Char} {l : Nat} {us : List Nat} (isBody : IsBody body (l :: us))
    (trailing : isTrailing l = true) :
    ∃ digits rest, IsUnit digits l ∧ body = '\\' :: 'u' :: (digits ++ rest) ∧ IsBody rest us := by
  -- No character begins with the second half of a pair.
  have apart {c : Char} {vs : List Nat} (same : l :: us = units c ++ vs) : False := by
    have noTrailing := isTrailing_units same.symm
    rw [trailing] at noTrailing
    cases noTrailing
  generalize same : l :: us = all at isBody
  cases isBody with
  | nil => cases same
  | cons first rest =>
      cases first with
      | itself => exact (apart same).elim
      | letter => exact (apart same).elim
      | unit told =>
          cases same
          exact ⟨_, _, told, rfl, rest⟩

theorem IsBody.exists_spells {body : List Char} {c : Char} {us : List Nat} (isBody : IsBody body (units c ++ us)) :
    ∃ piece rest, Spells piece c ∧ body = piece ++ rest ∧ IsBody rest us := by
  generalize same : units c ++ us = all at isBody
  cases isBody with
  | nil => exact absurd (List.append_eq_nil_iff.mp same).1 (units_ne_nil c)
  | cons first rest =>
      cases first with
      | itself shown noQuote noBackslash =>
          obtain ⟨rfl, rfl⟩ := units_append_inj same
          exact ⟨_, _, .itself shown noQuote noBackslash, rfl, rest⟩
      | letter listed =>
          obtain ⟨rfl, rfl⟩ := units_append_inj same
          exact ⟨_, _, .letter listed, rfl, rest⟩
      | unit told =>
          rcases units_cases c with ⟨u, one, -⟩ | ⟨h, l, two, -, -, trailing⟩
          · rw [one] at same
            cases same
            exact ⟨_, _, .unit told one, rfl, rest⟩
          · rw [two] at same
            cases same
            obtain ⟨digits, behind, told', rfl, others⟩ := rest.exists_trailing trailing
            exact ⟨_, behind, .pair told told' two, by simp, others⟩

/-- A string denotes the text whose units it tells, and no text if these are the units of none. -/
theorem denotes_iff {body text : List Char} : Denotes body text ↔ IsBody body (text.flatMap units) := by
  refine ⟨Denotes.isBody, fun isBody => ?_⟩
  induction text generalizing body with
  | nil =>
      obtain rfl := isBody.eq_nil
      exact .nil
  | cons c text ih =>
      rw [List.flatMap_cons] at isBody
      obtain ⟨piece, rest, spells, rfl, others⟩ := isBody.exists_spells
      exact .cons spells (ih others)

/-! ## Escapes by number -/

def readAfterUnit (leading : Option Nat) (u : Nat) (rest : List Char) : Except Error (List Char × List Char) :=
  match leading with
  | none =>
    if isTrailing u then .error .loneSurrogate
    else if isLeading u then readChars (.paired u) rest
    else (readChars .plain rest).map fun (chars, tail) => (Char.ofNat u :: chars, tail)
  | some first =>
    if isTrailing u then (readChars .plain rest).map fun (chars, tail) => (ofPair first u :: chars, tail)
    else .error .loneSurrogate

variable {leading : Option Nat} {count value : Nat} {text input rest : List Char} {r : List Char × List Char}

theorem readChars_hexDigit {c : Char} {digit : Nat} (isDigit : IsHexDigit c digit) (rest : List Char) :
    readChars (.hex leading count value) (c :: rest) =
      if count < 3 then readChars (.hex leading (count + 1) (16 * value + digit)) rest
      else readAfterUnit leading (16 * value + digit) rest := by
  rw [readChars, hexDigit?_eq_some_iff.mpr isDigit]
  rfl

theorem exists_hexDigit (read : readChars (.hex leading count value) input = .ok r) :
    ∃ c digit rest, IsHexDigit c digit ∧ input = c :: rest := by
  cases input with
  | nil => cases read
  | cons c rest =>
      rw [readChars] at read
      cases known : hexDigit? c with
      | none =>
          rw [known] at read
          cases read
      | some digit => exact ⟨c, digit, rest, hexDigit?_eq_some_iff.mp known, rfl⟩

theorem readChars_unit {digits : List Char} {u : Nat} (told : IsUnit digits u) (rest : List Char) :
    readChars (.hex leading 0 0) (digits ++ rest) = readAfterUnit leading u rest := by
  obtain ⟨first, second, third, fourth⟩ := told
  simp only [List.cons_append, List.nil_append, readChars_hexDigit first, readChars_hexDigit second,
    readChars_hexDigit third, readChars_hexDigit fourth, Nat.mul_zero, Nat.zero_add, Nat.reduceAdd, Nat.reduceLT,
    Nat.lt_irrefl, ↓reduceIte]

theorem exists_unit (read : readChars (.hex leading 0 0) input = .ok r) :
    ∃ digits u rest, IsUnit digits u ∧ input = digits ++ rest ∧ readAfterUnit leading u rest = .ok r := by
  obtain ⟨a, w, rest, first, rfl⟩ := exists_hexDigit read
  have afterFirst := (readChars_hexDigit first rest).symm.trans read
  obtain ⟨b, x, rest, second, rfl⟩ := exists_hexDigit afterFirst
  have afterSecond := (readChars_hexDigit second rest).symm.trans afterFirst
  obtain ⟨c, y, rest, third, rfl⟩ := exists_hexDigit afterSecond
  have afterThird := (readChars_hexDigit third rest).symm.trans afterSecond
  obtain ⟨d, z, rest, fourth, rfl⟩ := exists_hexDigit afterThird
  have told := IsUnit.mk first second third fourth
  exact ⟨_, _, rest, told, rfl, (readChars_unit told rest).symm.trans read⟩

theorem exists_paired {h : Nat} (read : readChars (.paired h) input = .ok r) :
    ∃ rest, input = '\\' :: 'u' :: rest ∧ readChars (.hex (some h) 0 0) rest = .ok r := by
  cases input with
  | nil => cases read
  | cons c input =>
      rw [readChars] at read
      split at read
      · next backslash =>
          cases input with
          | nil => cases read
          | cons l input =>
              rw [readChars] at read
              split at read
              · next letter => exact ⟨input, by rw [backslash, letter], read⟩
              · cases read
      · cases read

/-! ## Reading -/

theorem map_eq_ok {α β : Type} {x : Except Error α} {f : α → β} {b : β} (same : x.map f = .ok b) :
    ∃ a, x = .ok a ∧ f a = b := by
  cases x with
  | error e => cases same
  | ok a => exact ⟨a, rfl, Except.ok.inj same⟩

theorem unescape?_eq_some_iff {l c : Char} : unescape? l = some c ↔ (l, c) ∈ shorthands := by
  constructor
  · intro known
    unfold unescape? at known
    split at known <;> cases known <;> decide
  · intro listed
    simp only [shorthands, List.mem_cons, Prod.mk.injEq, List.not_mem_nil, or_false] at listed
    rcases listed with ⟨rfl, rfl⟩ | ⟨rfl, rfl⟩ | ⟨rfl, rfl⟩ | ⟨rfl, rfl⟩ | ⟨rfl, rfl⟩ | ⟨rfl, rfl⟩ | ⟨rfl, rfl⟩ |
      ⟨rfl, rfl⟩ <;> rfl

theorem isControl_eq_true {c : Char} : isControl c = true ↔ c.toNat < 0x20 := by
  simp [isControl]

theorem readChars_spells {piece : List Char} {c : Char} (spells : Spells piece c) (rest : List Char) :
    readChars .plain (piece ++ rest) = (readChars .plain rest).map fun (chars, tail) => (c :: chars, tail) := by
  cases spells with
  | itself shown noQuote noBackslash =>
      have noControl : ¬ isControl c = true := fun control => Nat.not_lt.mpr shown (isControl_eq_true.mp control)
      rw [List.singleton_append, readChars, if_neg noControl]
      · exact fun same => noQuote same
      · exact fun same => noBackslash same
  | @letter l _ listed =>
      have known := unescape?_eq_some_iff.mpr listed
      have noUnit : l ≠ 'u' := by
        rintro rfl
        cases known
      rw [List.cons_append, List.singleton_append, readChars, readChars, known]
      exact noUnit
  | unit told encodes =>
      obtain ⟨rfl, noLeading, noTrailing⟩ := of_units_eq_singleton encodes
      rw [List.cons_append, List.cons_append, readChars, readChars, readChars_unit told, readAfterUnit, noTrailing,
        noLeading]
      rfl
  | @pair _ high low h l toldHigh toldLow encodes =>
      obtain ⟨rfl, leading, trailing⟩ := of_units_eq_pair encodes
      have noTrailing := isTrailing_of_isLeading leading
      rw [List.cons_append, List.cons_append, List.append_assoc, readChars, readChars, readChars_unit toldHigh,
        readAfterUnit, noTrailing, leading]
      change readChars (.hex (some h) 0 0) (low ++ rest) = _
      rw [readChars_unit toldLow, readAfterUnit, trailing]
      rfl

theorem readChars_denotes {body : List Char} (denotes : Denotes body text) (rest : List Char) :
    readChars .plain (body ++ '"' :: rest) = .ok (text, rest) := by
  induction denotes with
  | nil => rfl
  | cons first _ ih =>
      rw [List.append_assoc, readChars_spells first, ih]
      rfl

theorem push_eq_ok {c : Char} {x : Except Error (List Char × List Char)}
    (pushed : (x.map fun (chars, tail) => (c :: chars, tail)) = .ok (text, rest)) :
    ∃ text', text = c :: text' ∧ x = .ok (text', rest) := by
  obtain ⟨⟨text', tail⟩, known, same⟩ := map_eq_ok pushed
  cases same
  exact ⟨text', rfl, known⟩

theorem exists_units (read : readChars (.hex none 0 0) input = .ok (text, rest)) :
    ∃ numbers c input' text', Spells ('\\' :: 'u' :: numbers) c ∧ input = numbers ++ input' ∧ text = c :: text' ∧
      readChars .plain input' = .ok (text', rest) := by
  obtain ⟨digits, u, input, told, rfl, behind⟩ := exists_unit read
  simp only [readAfterUnit] at behind
  split at behind
  · cases behind
  next noTrailing =>
  split at behind
  · next leading =>
      obtain ⟨input, rfl, other⟩ := exists_paired behind
      obtain ⟨digits', u', input, told', rfl, behind'⟩ := exists_unit other
      simp only [readAfterUnit] at behind'
      split at behind'
      · next trailing =>
          obtain ⟨text', rfl, later⟩ := push_eq_ok behind'
          exact ⟨_, _, input, text', .pair told told' (units_ofPair leading trailing), by simp, rfl, later⟩
      · cases behind'
  · next noLeading =>
      obtain ⟨text', rfl, later⟩ := push_eq_ok behind
      have encodes := units_ofNat told.lt (Bool.eq_false_iff.mpr noLeading) (Bool.eq_false_iff.mpr noTrailing)
      exact ⟨digits, _, input, text', .unit told encodes, rfl, rfl, later⟩

theorem exists_escape (read : readChars .escape input = .ok (text, rest)) :
    ∃ escaped c input' text', Spells ('\\' :: escaped) c ∧ input = escaped ++ input' ∧ text = c :: text' ∧
      readChars .plain input' = .ok (text', rest) := by
  cases input with
  | nil => cases read
  | cons l input =>
      by_cases number : l = 'u'
      · subst number
        obtain ⟨numbers, c, input', text', spells, rfl, begins, later⟩ := exists_units read
        exact ⟨'u' :: numbers, c, input', text', spells, rfl, begins, later⟩
      · rw [readChars] at read
        · split at read
          · next c known =>
              obtain ⟨text', rfl, later⟩ := push_eq_ok read
              exact ⟨[l], c, input, text', .letter (unescape?_eq_some_iff.mp known), rfl, rfl, later⟩
          · cases read
        · exact number

theorem readChars_cases (read : readChars .plain input = .ok (text, rest)) :
    text = [] ∧ input = '"' :: rest ∨
      ∃ piece c input' text', Spells piece c ∧ input = piece ++ input' ∧ text = c :: text' ∧
        readChars .plain input' = .ok (text', rest) := by
  cases input with
  | nil => cases read
  | cons d input =>
      by_cases quote : d = '"'
      · subst quote
        cases read
        exact Or.inl ⟨rfl, rfl⟩
      by_cases backslash : d = '\\'
      · subst backslash
        obtain ⟨escaped, c, input', text', spells, rfl, begins, later⟩ := exists_escape read
        exact Or.inr ⟨'\\' :: escaped, c, input', text', spells, rfl, begins, later⟩
      rw [readChars] at read
      · split at read
        · cases read
        · next noControl =>
            obtain ⟨text', rfl, later⟩ := push_eq_ok read
            have shown : 0x20 ≤ d.toNat := Nat.le_of_not_lt fun control => noControl (isControl_eq_true.mpr control)
            exact Or.inr ⟨[d], d, input, text', .itself shown quote backslash, rfl, rfl, later⟩
      · exact quote
      · exact backslash

/-- Up to the closing quote, what denotes the text is read and nothing else. -/
theorem readChars_eq_ok_iff :
    readChars .plain input = .ok (text, rest) ↔ ∃ body, Denotes body text ∧ input = body ++ '"' :: rest := by
  constructor
  · intro read
    induction text generalizing input with
    | nil =>
        rcases readChars_cases read with ⟨-, rfl⟩ | ⟨piece, c, input', text', -, -, same, -⟩
        · exact ⟨[], .nil, rfl⟩
        · cases same
    | cons c text ih =>
        rcases readChars_cases read with ⟨same, -⟩ | ⟨piece, c, input', text', first, rfl, same, later⟩
        · cases same
        · cases same
          obtain ⟨body, denotes, rfl⟩ := ih later
          exact ⟨piece ++ body, .cons first denotes, (List.append_assoc ..).symm⟩
  · rintro ⟨body, denotes, rfl⟩
    exact readChars_denotes denotes rest

/-! ## Writing -/

theorem isHexDigit_digitChar {value : Nat} (small : value < 16) : IsHexDigit value.digitChar value :=
  ⟨small, Or.inl rfl⟩

theorem spells_number {c : Char} (control : c.toNat < 0x20) :
    Spells ['\\', 'u', '0', '0', (c.toNat / 16).digitChar, (c.toNat % 16).digitChar] c := by
  have zero : IsHexDigit '0' 0 := isHexDigit_digitChar (by decide)
  have high := isHexDigit_digitChar (show c.toNat / 16 < 16 by omega)
  have low := isHexDigit_digitChar (show c.toNat % 16 < 16 by omega)
  have told := IsUnit.mk zero zero high low
  have value : 16 * (16 * (16 * 0 + 0) + c.toNat / 16) + c.toNat % 16 = c.toNat := by omega
  rw [value] at told
  exact .unit told (if_pos (by omega))

theorem spells_escape (c : Char) : Spells (escape c) c := by
  unfold escape
  split
  -- The characters with an escape of their own.
  iterate 7 exact .letter (by decide)
  · next noQuote noBackslash _ _ _ _ _ =>
      split
      · next control => exact spells_number (isControl_eq_true.mp control)
      · next noControl =>
          exact .itself (Nat.le_of_not_lt fun control => noControl (isControl_eq_true.mpr control)) noQuote noBackslash

theorem denotes_flatMap_escape (text : List Char) : Denotes (text.flatMap escape) text := by
  induction text with
  | nil => exact .nil
  | cons c text ih => exact .cons (spells_escape c) ih

theorem readChars_flatMap_escape (text rest : List Char) :
    readChars .plain (text.flatMap escape ++ '"' :: rest) = .ok (text, rest) :=
  readChars_denotes (denotes_flatMap_escape text) rest

end LedgerDrill.Json
