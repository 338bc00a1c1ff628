import LedgerDrill.Json.Reader
import LedgerDrill.Json.Strings
import LedgerDrill.Proofs.Json.Strings
import LedgerDrill.Proofs.Text.Words

namespace LedgerDrill.Json
open Text (isDigit digitValue decimal)

def Gives {α : Type} (result : Except Error α) (admitted : Prop) (value : α) : Prop :=
  (admitted → result = .ok value) ∧ (¬ admitted → ∃ e, result = .error e)

section

variable {α β : Type} {x : Except Error α} {a : α} {p q : Prop}

theorem gives_ok (same : x = .ok a) : Gives x True a := ⟨fun _ => same, fun no => absurd trivial no⟩

theorem Gives.ok (gives : Gives x p a) (admitted : p) : x = .ok a := gives.1 admitted

theorem Gives.congr (gives : Gives x p a) (iff : p ↔ q) : Gives x q a :=
  ⟨fun h => gives.1 (iff.mpr h), fun h => gives.2 fun admitted => h (iff.mp admitted)⟩

theorem Gives.eq (gives : Gives x p a) {other : α} (same : x = .ok other) : p ∧ other = a := by
  by_cases admitted : p
  · rw [gives.1 admitted] at same
    exact ⟨admitted, (Except.ok.inj same).symm⟩
  · obtain ⟨e, refused⟩ := gives.2 admitted
    rw [refused] at same
    contradiction

theorem Gives.bind (gives : Gives x p a) {f : α → Except Error β} {b : β}
    (next : Gives (f a) q b) : Gives (x >>= f) (p ∧ q) b := by
  constructor
  · rintro ⟨admitted, rest⟩
    rw [gives.1 admitted]
    exact next.1 rest
  · intro refused
    by_cases admitted : p
    · rw [gives.1 admitted]
      exact next.2 fun rest => refused ⟨admitted, rest⟩
    · obtain ⟨e, error⟩ := gives.2 admitted
      exact ⟨e, by rw [error]; rfl⟩

theorem Gives.map (gives : Gives x p a) (f : α → β) :
    Gives (do let a ← x; return f a) p (f a) :=
  (gives.bind (f := fun a => .ok (f a)) (gives_ok rfl)).congr (iff_of_eq (and_true p))

end

/-! ## Blanks -/

section

variable {before after : List Char}

theorem isBlank_iff {c : Char} : isBlank c = true ↔ c ∈ [' ', '\n', '\t', '\r'] := by
  simp [isBlank, or_assoc]

theorem skipBlanks_append (blanks : ∀ c ∈ before, isBlank c = true) (rest : List Char) :
    skipBlanks (before ++ rest) = skipBlanks rest :=
  List.dropWhile_append_of_pos blanks

theorem exists_blanks (input : List Char) :
    ∃ before, (∀ c ∈ before, isBlank c = true) ∧ input = before ++ skipBlanks input :=
  ⟨input.takeWhile isBlank, fun _ member => List.mem_takeWhile_imp member, List.takeWhile_append_dropWhile.symm⟩

theorem isEmpty_skipBlanks_iff : (skipBlanks after).isEmpty = true ↔ ∀ c ∈ after, isBlank c = true :=
  List.isEmpty_iff.trans List.dropWhile_eq_nil_iff

theorem skipBlanks_cons {c : Char} (shown : isBlank c = false) (rest : List Char) :
    skipBlanks (c :: rest) = c :: rest := by
  simp [skipBlanks, shown]

theorem readDocument_eq_ok_iff {α : Type} {read : Reader α} {document : String} {value : α} :
    readDocument read document = .ok value ↔
      ∃ rest, read document.toList = .ok (value, rest) ∧ ∀ c ∈ rest, isBlank c = true := by
  unfold readDocument
  cases read document.toList with
  | error e => simp [bind, Except.bind]
  | ok result =>
      obtain ⟨other, rest⟩ := result
      change (if (skipBlanks rest).isEmpty = true then Except.ok other else .error Error.trailingCharacters) =
        .ok value ↔ _
      split
      · next blank =>
          constructor
          · rintro ⟨⟩
            exact ⟨rest, rfl, isEmpty_skipBlanks_iff.mp blank⟩
          · rintro ⟨_, ⟨⟩, -⟩
            rfl
      · next more =>
          constructor
          · nofun
          · rintro ⟨_, ⟨⟩, blanks⟩
            exact absurd (isEmpty_skipBlanks_iff.mpr blanks) more

end

def Ends (rest : List Char) : Prop := ∀ c tail, rest = c :: tail → c = ',' ∨ c = ']' ∨ c = '\x7d'

def Stops (rest : List Char) : Prop :=
  ∀ c tail, rest = c :: tail → isBlank c = true ∨ c = ',' ∨ c = ']' ∨ c = '\x7d'

theorem Ends.stops {rest : List Char} (ends : Ends rest) : Stops rest := fun c tail same => .inr (ends c tail same)

theorem ends_cons {c : Char} (closes : c = ',' ∨ c = ']' ∨ c = '\x7d') (rest : List Char) :
    Ends (c :: rest) := by
  rintro _ _ ⟨⟩
  exact closes

/-! ## Strings -/

theorem writeString_append (text rest : List Char) :
    writeString text ++ rest = '"' :: (text.flatMap escape ++ '"' :: rest) := by
  simp [writeString]

theorem readStringAs_writeString {α : Type} (expected : String) (take : String → Except Error α)
    (text : String) (rest : List Char) :
    readStringAs expected take (writeString text.toList ++ rest) =
      (do return (← take text, rest)) := by
  have shown : isBlank '"' = false := rfl
  rw [writeString_append]
  simp only [readStringAs, skipBlanks_cons shown, readChars_flatMap_escape]
  change (do return (← take (String.ofList text.toList), rest)) = _
  rw [String.ofList_toList]

/-! ## Numbers -/

theorem isBlank_of_isDigit {c : Char} (digit : isDigit c = true) : isBlank c = false := by
  refine Bool.eq_false_iff.mpr fun blank => ?_
  have listed := isBlank_iff.mp blank
  simp only [List.mem_cons, List.not_mem_nil, or_false] at listed
  rcases listed with rfl | rfl | rfl | rfl <;> contradiction

theorem head?_decimal {n : Nat} (positive : 0 < n) : (decimal n).head? ≠ some '0' := by
  induction n using Nat.strongRecOn with
  | ind n ih =>
      by_cases small : n < 10
      · rw [decimal, Nat.toDigits_of_lt_base small]
        simp only [List.head?_cons, ne_eq, Option.some.injEq, Nat.digitChar_eq_zero]
        omega
      · have split : decimal n = decimal (n / 10) ++ Nat.toDigits 10 (n % 10) := by
          rw [decimal, decimal, Nat.toDigits_append_toDigits (by decide) (by omega) (by omega)]
          congr
          omega
        have first := ih (n / 10) (by omega) (by omega)
        obtain ⟨c, digits, head⟩ := List.exists_cons_of_ne_nil (Nat.toDigits_ne_nil (n := n / 10) (b := 10))
        rw [decimal, head] at first
        rw [split, decimal, head]
        exact first

theorem decimal_cases (n : Nat) :
    ∃ c digits, decimal n = c :: digits ∧ isDigit c = true ∧ (c = '0' → digits = []) := by
  obtain ⟨c, digits, split⟩ := List.exists_cons_of_ne_nil (Nat.toDigits_ne_nil (n := n) (b := 10))
  have isFirst : c ∈ decimal n := by
    rw [decimal, split]
    exact List.mem_cons_self
  refine ⟨c, digits, split, Text.isDigit_of_mem_decimal isFirst, ?_⟩
  rintro rfl
  cases n with
  | zero => exact (List.cons.inj split).2.symm
  | succ n =>
      have first := head?_decimal (Nat.succ_pos n)
      rw [decimal, split] at first
      exact absurd rfl first

theorem takeSignificand_cases (digits : List Char) {significand : Nat} (small : significand < wordBound) :
    (Nat.ofDigitChars 10 digits significand < wordBound →
      takeSignificand significand digits = (Nat.ofDigitChars 10 digits significand, [])) ∧
    (¬ Nat.ofDigitChars 10 digits significand < wordBound →
      (takeSignificand significand digits).2 ≠ []) := by
  induction digits generalizing significand with
  | nil => exact ⟨fun _ => rfl, fun large => absurd small large⟩
  | cons c digits ih =>
      have next : Nat.ofDigitChars 10 (c :: digits) significand =
          Nat.ofDigitChars 10 digits (10 * significand + digitValue c) := Nat.ofDigitChars_cons
      rw [next, takeSignificand]
      by_cases fits : 10 * significand + digitValue c < wordBound
      · simp only [fits, ↓reduceIte]
        exact ih fits
      · simp only [fits, ↓reduceIte]
        refine ⟨fun small => absurd small ?_, fun _ => List.cons_ne_nil _ _⟩
        rw [Nat.ofDigitChars_eq_ofDigitChars_zero]
        have grows := Nat.le_mul_of_pos_left (10 * significand + digitValue c)
          (Nat.pow_pos (n := digits.length) (show 0 < 10 by decide))
        omega

theorem readFloatEnd_cases (negative : Bool) (significand : Nat) (shift : Int) (text : List Char) :
    (∃ e, readFloatEnd negative significand shift text = .error e) ∨
      ∃ below value rest,
        readFloatEnd negative significand shift text = .ok (.float below value, rest) := by
  have scaled (shift : Int) (rest : List Char) :
      (∃ e, (scaleFloat (Binary64.ofNat significand) shift).map
        (fun value => (Number.float negative value, rest)) = .error e) ∨
      ∃ below value rest', (scaleFloat (Binary64.ofNat significand) shift).map
        (fun value => (Number.float negative value, rest)) = .ok (.float below value, rest') := by
    cases scaleFloat (Binary64.ofNat significand) shift with
    | error e => exact Or.inl ⟨e, rfl⟩
    | ok value => exact Or.inr ⟨negative, value, rest, rfl⟩
  have exponent (text : List Char) :
      (∃ e, readExponent negative significand shift text = .error e) ∨
      ∃ below value rest,
        readExponent negative significand shift text = .ok (.float below value, rest) := by
    unfold readExponent
    split
    split
    · exact Or.inl ⟨_, rfl⟩
    · split
      · exact Or.inl ⟨_, rfl⟩
      · simp only
        split
        · split
          · exact Or.inl ⟨_, rfl⟩
          · exact Or.inr ⟨_, _, _, rfl⟩
        · exact scaled _ _
  unfold readFloatEnd
  split
  · exact exponent _
  · exact exponent _
  · exact scaled _ _

theorem not_isDigit_of_stops {rest : List Char} (stops : Stops rest) :
    rest.takeWhile isDigit = [] ∧ rest.dropWhile isDigit = rest ∧
      rest.head?.any isDigit = false ∧ (∀ tail, rest ≠ '.' :: tail) ∧
      (rest.head?.any fun c => c == 'e' || c == 'E') = false := by
  cases rest with
  | nil => simp
  | cons c tail =>
      obtain ⟨noDigit, noPoint, noExponent⟩ :
          isDigit c = false ∧ c ≠ '.' ∧ (c == 'e' || c == 'E') = false := by
        rcases stops c tail rfl with blank | rfl | rfl | rfl
        · have listed := isBlank_iff.mp blank
          simp only [List.mem_cons, List.not_mem_nil, or_false] at listed
          rcases listed with rfl | rfl | rfl | rfl <;> decide
        all_goals decide
      simp only [List.takeWhile_cons, List.dropWhile_cons, List.head?_cons, Option.any_some, noDigit,
        noExponent, Bool.false_eq_true, ↓reduceIte, true_and, and_true]
      exact fun _ same => noPoint (List.cons.inj same).1

theorem readDigits_decimal (negative : Bool) (n : Nat) {rest : List Char} (stops : Stops rest) :
    (n < wordBound → readDigits negative (decimal n ++ rest) = .ok (ofWhole negative n, rest)) ∧
    (¬ n < wordBound → ∃ significand shift,
      readDigits negative (decimal n ++ rest) = readFloatEnd negative significand shift rest) := by
  obtain ⟨noDigits, all, noZero, noPoint, noExponent⟩ := not_isDigit_of_stops stops
  obtain ⟨c, digits, split, isFirst, leading⟩ := decimal_cases n
  have isDigits : ∀ other ∈ c :: digits, isDigit other = true := by
    intro other member
    rw [← split] at member
    exact Text.isDigit_of_mem_decimal member
  have value : Nat.ofDigitChars 10 (c :: digits) 0 = n := by
    rw [← split]
    exact Nat.ofDigitChars_toDigits (by decide) (by decide)
  have taken : (c :: (digits ++ rest)).takeWhile isDigit = c :: digits := by
    rw [← List.cons_append, List.takeWhile_append_of_pos isDigits, noDigits, List.append_nil]
  have left : (c :: (digits ++ rest)).dropWhile isDigit = rest := by
    rw [← List.cons_append, List.dropWhile_append_of_pos isDigits, all]
  have notLeading : (c = '0' && (digits ++ rest).head?.any isDigit) = false := by
    by_cases zero : c = '0'
    · rw [leading zero, List.nil_append, noZero, Bool.and_false]
    · simp [zero]
  -- The digits fill the significand, or the first that no longer fits turns the number into a float.
  have small : (0 : Nat) < wordBound := by decide
  obtain ⟨fits, exceeds⟩ := takeSignificand_cases (c :: digits) small
  rw [value] at fits exceeds
  rw [split, List.cons_append]
  simp only [readDigits, isFirst, notLeading, taken, left, Bool.not_true, Bool.false_eq_true, ↓reduceIte]
  constructor
  · intro inside
    rw [fits inside, if_pos (by simp [noExponent])]
  · intro outside
    rw [if_neg (by simp [exceeds outside])]
    exact ⟨_, _, rfl⟩

theorem readNumber_decimal (n : Nat) (rest : List Char) :
    readNumber (decimal n ++ rest) = readDigits false (decimal n ++ rest) := by
  obtain ⟨c, digits, split, isFirst, -⟩ := decimal_cases n
  rw [split, List.cons_append]
  unfold readNumber
  split
  · next same =>
      cases same
      contradiction
  · rfl

theorem gives_readNatural (expected : String) (n : Nat) {rest : List Char} (ends : Ends rest) :
    Gives (readNatural wordBound expected (decimal n ++ rest)) (n < wordBound) (n, rest) := by
  obtain ⟨fits, exceeds⟩ := readDigits_decimal false n ends.stops
  rw [← readNumber_decimal] at fits exceeds
  obtain ⟨c, digits, split, isFirst, _⟩ := decimal_cases n
  have begins : skipBlanks (decimal n ++ rest) = decimal n ++ rest := by
    rw [split, List.cons_append, skipBlanks_cons (isBlank_of_isDigit isFirst)]
  have isNumber : ((decimal n ++ rest).head?.any fun c => c == '-' || isDigit c) = true := by
    simp [split, isFirst]
  constructor
  · intro inside
    have bounds : (0 : Int) ≤ n ∧ (n : Int) ≤ wordBound - 1 := ⟨Int.natCast_nonneg n, by omega⟩
    have read : readInteger 0 (wordBound - 1) expected (decimal n ++ rest) = .ok ((n : Int), rest) := by
      simp only [readInteger, begins, isNumber, ↓reduceIte, fits inside]
      exact if_pos bounds
    rw [readNatural, read]
    rfl
  · intro outside
    obtain ⟨significand, shift, float⟩ := exceeds outside
    simp only [readNatural, readInteger, begins, isNumber, ↓reduceIte, float]
    rcases readFloatEnd_cases false significand shift rest with ⟨e, read⟩ | ⟨below, value, rest', read⟩
    · exact ⟨e, by rw [read]; rfl⟩
    · exact ⟨_, by rw [read]; rfl⟩

/-! ## Lists and objects -/

def writeRest (parts : List (List Char)) : List Char := parts.flatMap (',' :: ·)

@[simp] theorem writeRest_nil : writeRest [] = [] := rfl

@[simp] theorem writeRest_cons (part : List Char) (parts : List (List Char)) :
    writeRest (part :: parts) = ',' :: (part ++ writeRest parts) := rfl

theorem intercalate_cons (part : List Char) (parts : List (List Char)) :
    [','].intercalate (part :: parts) = part ++ writeRest parts := Text.intercalate_cons [','] parts

theorem ends_writeRest (parts : List (List Char)) {closing : Char} (closes : closing = ']' ∨ closing = '\x7d')
    (rest : List Char) : Ends (writeRest parts ++ closing :: rest) := by
  cases parts with
  | nil => exact ends_cons (Or.inr closes) rest
  | cons part parts => exact ends_cons (Or.inl rfl) _

theorem writeMember_append (name : String) (value rest : List Char) :
    writeMember name value ++ rest =
      '"' :: (name.toList.flatMap escape ++ '"' :: ':' :: (value ++ rest)) := by
  simp [writeMember, writeString]

section

variable {α : Type} {member : Member α} {bound : Nat} {seen : α}

theorem readMembers_name (first : Bool) (name : String) {opened rest : List Char}
    (next : nextKey first opened = .ok (.inl (name.toList.flatMap escape ++ '"' :: rest))) :
    readMembers member (bound + 1) first seen opened = (do
      let (seen, rest) ← member seen name rest
      readMembers member bound false seen rest) := by
  simp only [readMembers, next, bind, Except.bind, readChars_flatMap_escape, String.ofList_toList]

theorem readMembers_first (name : String) (value rest : List Char) :
    readMembers member (bound + 1) true seen (writeMember name value ++ rest) = (do
      let (seen, rest) ← member seen name (':' :: (value ++ rest))
      readMembers member bound false seen rest) := by
  rw [writeMember_append]
  exact readMembers_name true name rfl

theorem readMembers_next (name : String) (value rest : List Char) :
    readMembers member (bound + 1) false seen (',' :: (writeMember name value ++ rest)) = (do
      let (seen, rest) ← member seen name (':' :: (value ++ rest))
      readMembers member bound false seen rest) := by
  rw [writeMember_append]
  exact readMembers_name false name rfl

theorem readMembers_end (first : Bool) (rest : List Char) :
    readMembers member (bound + 1) first seen ('\x7d' :: rest) = .ok (seen, rest) := rfl

def Continues (member : Member α) (seen : α) (parts : List (List Char)) (admitted : Prop) (final : α) : Prop :=
  ∀ bound rest, parts.length < bound →
    Gives (readMembers member bound false seen (writeRest parts ++ '\x7d' :: rest)) admitted (final, rest)

theorem continues_nil : Continues member seen [] True seen := by
  intro bound rest enough
  obtain ⟨bound, rfl⟩ := Nat.exists_eq_succ_of_ne_zero (Nat.ne_zero_of_lt enough)
  exact gives_ok (readMembers_end false rest)

variable {name : String} {value : List Char} {parts : List (List Char)} {next final : α} {p q : Prop}

theorem Continues.cons (later : Continues member next parts q final)
    (first : ∀ rest, Ends rest → Gives (member seen name (':' :: (value ++ rest))) p (next, rest)) :
    Continues member seen (writeMember name value :: parts) (p ∧ q) final := by
  intro bound rest enough
  obtain ⟨bound, rfl⟩ := Nat.exists_eq_succ_of_ne_zero (Nat.ne_zero_of_lt enough)
  have closes := ends_writeRest parts (Or.inr rfl) rest
  rw [writeRest_cons, List.cons_append, List.append_assoc, readMembers_next]
  exact (first _ closes).bind (later bound rest (Nat.lt_of_succ_lt_succ enough))

theorem length_writeRest (parts : List (List Char)) : parts.length ≤ (writeRest parts).length := by
  induction parts with
  | nil => exact Nat.le_refl 0
  | cons part parts ih =>
      simp only [writeRest_cons, List.length_cons, List.length_append]
      omega

theorem Continues.readObject (later : Continues member next parts q final)
    (first : ∀ rest, Ends rest → Gives (member seen name (':' :: (value ++ rest))) p (next, rest))
    (rest : List Char) :
    Gives (readObject member seen ([','].intercalate (writeMember name value :: parts) ++ '\x7d' :: rest))
      (p ∧ q) (final, rest) := by
  have closes := ends_writeRest parts (Or.inr rfl) rest
  have long := length_writeRest parts
  rw [intercalate_cons, List.append_assoc, Json.readObject, readMembers_first]
  refine (first _ closes).bind (later _ rest ?_)
  simp only [writeMember_append, List.length_cons, List.length_append]
  omega

variable {β : Type} {name : β → String} {value : β → List Char} {put : α → β → α}
variable {admitted : β → Prop}

theorem gives_readObject
    (each : ∀ seen item rest, Ends rest →
      Gives (member seen (name item) (':' :: (value item ++ rest))) (admitted item) (put seen item, rest))
    (items : List β) (seen : α) (rest : List Char) :
    Gives (readObject member seen
        ([','].intercalate (items.map fun item => writeMember (name item) (value item)) ++ '\x7d' :: rest))
      (∀ item ∈ items, admitted item) (items.foldl put seen, rest) := by
  have continues (items : List β) (seen : α) :
      Continues member seen (items.map fun item => writeMember (name item) (value item))
        (∀ item ∈ items, admitted item) (items.foldl put seen) := by
    induction items generalizing seen with
    | nil => exact fun bound rest enough => (continues_nil bound rest enough).congr (by simp)
    | cons item items ih =>
        intro bound rest enough
        exact ((ih (put seen item)).cons (each seen item) bound rest enough).congr (by simp)
  cases items with
  | nil => exact (gives_ok (readMembers_end true rest)).congr (by simp)
  | cons item items =>
      exact ((continues items (put seen item)).readObject (each seen item) rest).congr (by simp)

end

theorem gives_readElements {α : Type} {read : Reader α} {write : α → List Char} {admitted : α → Prop}
    (opens : ∀ a, ∃ text, write a = '\x7b' :: text)
    (each : ∀ a rest, Ends rest → Gives (read (write a ++ rest)) (admitted a) (a, rest))
    (values : List α) {bound : Nat} (enough : values.length < bound) (rest : List Char) :
    Gives (readElements read bound false (writeRest (values.map write) ++ ']' :: rest))
      (∀ a ∈ values, admitted a) (values, rest) := by
  induction values generalizing bound with
  | nil =>
      obtain ⟨bound, rfl⟩ := Nat.exists_eq_succ_of_ne_zero (Nat.ne_zero_of_lt enough)
      exact (gives_ok rfl).congr (by simp)
  | cons a values ih =>
      obtain ⟨bound, rfl⟩ := Nat.exists_eq_succ_of_ne_zero (Nat.ne_zero_of_lt enough)
      obtain ⟨text, opened⟩ := opens a
      have next : nextElement false (writeRest ((a :: values).map write) ++ ']' :: rest) =
          .ok (some (write a ++ (writeRest (values.map write) ++ ']' :: rest))) := by
        rw [List.map_cons, writeRest_cons, List.cons_append, List.append_assoc, opened]
        rfl
      have first := each a _ (ends_writeRest (values.map write) (Or.inl rfl) rest)
      have later := ih (Nat.lt_of_succ_lt_succ enough)
      rw [readElements, next]
      exact (first.bind (later.map fun read => (a :: read.1, read.2))).congr (by simp)

theorem gives_readList {α : Type} {read : Reader α} {write : α → List Char} {admitted : α → Prop}
    (opens : ∀ a, ∃ text, write a = '\x7b' :: text)
    (each : ∀ a rest, Ends rest → Gives (read (write a ++ rest)) (admitted a) (a, rest))
    (values : List α) (rest : List Char) :
    Gives (readList read (writeList (values.map write) ++ rest)) (∀ a ∈ values, admitted a)
      (values, rest) := by
  have opened : readList read (writeList (values.map write) ++ rest) =
      readElements read (([','].intercalate (values.map write) ++ ']' :: rest).length + 1) true
        ([','].intercalate (values.map write) ++ ']' :: rest) := by
    rw [writeList, writeBetween, List.append_assoc]
    rfl
  rw [opened]
  cases values with
  | nil => exact (gives_ok rfl).congr (by simp)
  | cons a values =>
      obtain ⟨text, begins⟩ := opens a
      have next : nextElement true (write a ++ (writeRest (values.map write) ++ ']' :: rest)) =
          .ok (some (write a ++ (writeRest (values.map write) ++ ']' :: rest))) := by
        rw [begins]
        rfl
      have first := each a _ (ends_writeRest (values.map write) (Or.inl rfl) rest)
      have long := length_writeRest (values.map write)
      rw [List.length_map] at long
      rw [List.map_cons, intercalate_cons, List.append_assoc, readElements, next]
      refine (first.bind (Gives.map (gives_readElements opens each values ?_ rest)
        fun read => (a :: read.1, read.2))).congr (by simp)
      simp only [begins, List.length_cons, List.length_append]
      omega

end LedgerDrill.Json
