import LedgerDrill.Duration.Text
import LedgerDrill.Proofs.Json.Reading
import Mathlib.Algebra.GroupWithZero.Nat

namespace LedgerDrill.Duration
open Text (isDigit digitValue decimal)

/-! ## Characters -/

theorem not_of_isUnitLetter {c : Char} (letter : isUnitLetter c = true) :
    isDigit c = false ∧ Text.isBlank c = false := by
  have code : (97 ≤ c.toNat ∧ c.toNat ≤ 122) ∨ (65 ≤ c.toNat ∧ c.toNat ≤ 90) ∨ c.toNat = 181 := by
    simp only [isUnitLetter, Bool.or_eq_true, Bool.and_eq_true, decide_eq_true_eq, beq_iff_eq] at letter
    rcases letter with (⟨low, high⟩ | ⟨low, high⟩) | rfl
    · exact Or.inl ⟨low, high⟩
    · exact Or.inr (Or.inl ⟨low, high⟩)
    · exact Or.inr (Or.inr rfl)
  constructor
  · rw [isDigit, Bool.and_eq_false_iff]
    right
    rw [decide_eq_false_iff_not]
    intro low
    have : c.toNat ≤ 57 := low
    omega
  · simp only [Text.isBlank, Bool.or_eq_false_iff, Bool.and_eq_false_iff, decide_eq_false_iff_not,
      beq_eq_false_iff_ne]
    omega

theorem not_isBlank_of_isDigit {c : Char} (digit : isDigit c = true) : Text.isBlank c = false := by
  have code : 48 ≤ c.toNat ∧ c.toNat ≤ 57 := by
    simp only [isDigit, Bool.and_eq_true, decide_eq_true_eq] at digit
    exact digit
  simp only [Text.isBlank, Bool.or_eq_false_iff, Bool.and_eq_false_iff, decide_eq_false_iff_not,
    beq_eq_false_iff_ne]
  omega

theorem readFrom?_cons (state : TextState) (d : Duration) (c : Char) (rest : List Char) :
    readFrom? state d (c :: rest) = (state.next? d c).bind fun (state, d) => readFrom? state d rest := rfl

theorem readFrom?_digits {digits : List Char} (areDigits : ∀ c ∈ digits, isDigit c = true) {value : Nat}
    (small : Nat.ofDigitChars 10 digits value < wordBound) (d : Duration) (rest : List Char) :
    readFrom? (.count value) d (digits ++ rest) =
      readFrom? (.count (Nat.ofDigitChars 10 digits value)) d rest := by
  induction digits generalizing value with
  | nil => rw [List.nil_append, Nat.ofDigitChars_nil]
  | cons c digits ih =>
      have next : Nat.ofDigitChars 10 (c :: digits) value =
          Nat.ofDigitChars 10 digits (10 * value + digitValue c) := Nat.ofDigitChars_cons
      rw [next] at small ⊢
      have grows := Nat.le_mul_of_pos_left (10 * value + digitValue c)
        (Nat.pow_pos (n := digits.length) (show 0 < 10 by decide))
      have bounded : bounded? (10 * value + digitValue c) = some (10 * value + digitValue c) := by
        rw [Nat.ofDigitChars_eq_ofDigitChars_zero] at small
        exact if_pos (by omega)
      have first : TextState.next? d c (.count value) = some (.count (10 * value + digitValue c), d) := by
        rw [TextState.next?, if_pos (areDigits c List.mem_cons_self), bounded]
        rfl
      rw [List.cons_append, readFrom?_cons, first]
      exact ih (fun other member => areDigits other (List.mem_cons_of_mem _ member)) small

theorem readFrom?_letters {more : List Char} (areLetters : ∀ c ∈ more, isUnitLetter c = true)
    (count : Nat) (letters : List Char) (d : Duration) (rest : List Char) :
    readFrom? (.unit count none letters) d (more ++ rest) =
      readFrom? (.unit count none (more.reverse ++ letters)) d rest := by
  induction more generalizing letters with
  | nil => rw [List.reverse_nil, List.nil_append, List.nil_append]
  | cons c more ih =>
      have first : TextState.next? d c (.unit count none letters) =
          some (.unit count none (c :: letters), d) := by
        rw [TextState.next?, if_pos (areLetters c List.mem_cons_self)]
      rw [List.cons_append, readFrom?_cons, first, List.reverse_cons, List.append_assoc,
        List.singleton_append]
      exact ih (fun other member => areLetters other (List.mem_cons_of_mem _ member)) (c :: letters)

theorem readFrom?_blank (d : Duration) (rest : List Char) :
    readFrom? .between d (' ' :: rest) = readFrom? .between d rest := rfl

theorem readFrom?_unit {count : Nat} {letters : List Char} {unit : TimeUnit}
    (known : TimeUnit.ofName? (String.ofList letters.reverse) = some unit) (d : Duration) {rest : List Char}
    (divided : rest = [] ∨ ∃ tail, rest = ' ' :: tail) :
    readFrom? (.unit count none letters) d rest =
      (d.addCount? count none unit).bind fun d => readFrom? .between d rest := by
  have closed : d.close? count none letters = d.addCount? count none unit := by
    rw [close?, known]
    rfl
  rcases divided with rfl | ⟨tail, rfl⟩
  · change d.close? count none letters = (d.addCount? count none unit).bind some
    rw [closed, Option.bind_fun_some]
  · change ((d.close? count none letters).map fun d => (TextState.between, d)).bind _ = _
    rw [closed]
    cases d.addCount? count none unit with
    | none => rfl
    | some d => rfl

theorem readFrom?_part {count : Nat} (small : count < wordBound) {name : List Char} {unit : TimeUnit}
    (known : TimeUnit.ofName? (String.ofList name) = some unit)
    (areLetters : ∀ c ∈ name, isUnitLetter c = true) (d : Duration) {rest : List Char}
    (divided : rest = [] ∨ ∃ tail, rest = ' ' :: tail) :
    readFrom? .between d (decimal count ++ (name ++ rest)) =
      (d.addCount? count none unit).bind fun d => readFrom? .between d rest := by
  obtain ⟨c, digits, split, first, -⟩ := Json.decimal_cases count
  obtain ⟨letter, more, rfl⟩ : ∃ letter more, name = letter :: more := by
    refine List.exists_cons_of_ne_nil ?_
    rintro rfl
    cases known
  have all : Nat.ofDigitChars 10 digits (digitValue c) = count := by
    have whole := Nat.ofDigitChars_toDigits (b := 10) (n := count) (by decide) (by decide)
    rw [← decimal, split, Nat.ofDigitChars_cons] at whole
    simpa [digitValue] using whole
  -- The first digit opens the number, the first letter closes it and opens the unit.
  have opens : TextState.next? d c .between = some (.count (digitValue c), d) := by
    rw [TextState.next?, if_pos first]
  have letterFirst := areLetters letter List.mem_cons_self
  obtain ⟨noDigit, noBlank⟩ := not_of_isUnitLetter letterFirst
  have names : TextState.next? d letter (.count count) = some (.unit count none [letter], d) := by
    simp [TextState.next?, noDigit, noBlank, letterFirst]
  calc readFrom? .between d (decimal count ++ (letter :: more ++ rest))
      = readFrom? (.count (digitValue c)) d (digits ++ (letter :: more ++ rest)) := by
        rw [split, List.cons_append, readFrom?_cons, opens]
        rfl
    _ = readFrom? (.unit count none [letter]) d (more ++ rest) := by
        have areDigits : ∀ other ∈ digits, isDigit other = true := fun other member =>
          Text.isDigit_of_mem_decimal (split ▸ List.mem_cons_of_mem c member)
        rw [readFrom?_digits areDigits (by rwa [all]), all, List.cons_append, readFrom?_cons, names]
        rfl
    _ = readFrom? (.unit count none (more.reverse ++ [letter])) d rest :=
        readFrom?_letters (fun other member => areLetters other (List.mem_cons_of_mem _ member)) ..
    _ = (d.addCount? count none unit).bind fun d => readFrom? .between d rest :=
        readFrom?_unit (by simpa using known) d divided

/-! ## Sums -/

theorem bounded?_eq_some {n : Nat} (small : n < wordBound) : bounded? n = some n := if_pos small

theorem ofParts?_eq_some {seconds nanos total : Nat} (same : seconds * nanosPerSecond + nanos = total)
    (fits : total < wordBound * nanosPerSecond) : ofParts? seconds nanos = some ⟨total, fits⟩ := by
  subst same
  exact dif_pos fits

structure Item where
  count : Nat
  unit : TimeUnit
  name : String

namespace Item

def nanos (i : Item) : Nat := i.count * (i.unit.seconds * nanosPerSecond + i.unit.subNanos)

def text (i : Item) : String := i.count.repr ++ i.name

structure Legible (i : Item) : Prop where
  known : TimeUnit.ofName? i.name = some i.unit
  letters : ∀ c ∈ i.name.toList, isUnitLetter c = true
  below : i.count * i.unit.subNanos < nanosPerSecond

def written (items : List Item) : List Item := items.filter (·.count ≠ 0)

theorem written_append (items more : List Item) : written (items ++ more) = written items ++ written more :=
  List.filter_append ..

def separated (items : List Item) : List Char := items.flatMap fun i => ' ' :: i.text.toList

theorem separated_cases (items : List Item) :
    separated items = [] ∨ ∃ tail, separated items = ' ' :: tail := by
  cases items with
  | nil => exact Or.inl rfl
  | cons i items => exact Or.inr ⟨_, rfl⟩

theorem intercalate_text (i : Item) (items : List Item) :
    (" ".intercalate ((i :: items).map text)).toList = i.text.toList ++ separated items := by
  rw [String.toList_intercalate]
  induction items generalizing i with
  | nil => simp [separated]
  | cons next items ih =>
      have tail := ih next
      simp only [List.map_cons] at tail ⊢
      rw [List.intercalate_cons_cons, tail]
      simp [separated]

theorem sum_written (items : List Item) : ((written items).map nanos).sum = (items.map nanos).sum := by
  induction items with
  | nil => rfl
  | cons i items ih =>
      rw [written, List.filter_cons, List.map_cons, List.sum_cons, ← ih]
      by_cases zero : i.count = 0
      · have nothing : i.nanos = 0 := by rw [nanos, zero, Nat.zero_mul]
        simp [zero, nothing, written]
      · simp [zero, written]

end Item

namespace Item

variable {i : Item}

theorem text_eq (i : Item) : i.text.toList = decimal i.count ++ i.name.toList := by
  rw [text, String.toList_append, Nat.toList_repr]
  rfl

theorem nanos_eq (i : Item) :
    i.nanos = i.count * i.unit.seconds * nanosPerSecond + i.count * i.unit.subNanos := by
  rw [nanos, Nat.mul_add, Nat.mul_assoc]

theorem seconds_lt (fits : i.nanos < wordBound * nanosPerSecond) : i.count * i.unit.seconds < wordBound := by
  refine Nat.lt_of_mul_lt_mul_right (a := nanosPerSecond) ?_
  have split := i.nanos_eq
  omega

theorem text_cons (legible : i.Legible) :
    ∃ c tail, i.text.toList = c :: tail ∧ isDigit c = true ∧ tail ≠ [] := by
  obtain ⟨c, digits, split, digit, -⟩ := Json.decimal_cases i.count
  refine ⟨c, digits ++ i.name.toList, ?_, digit, ?_⟩
  · rw [text_eq, split, List.cons_append]
  · intro none
    have noName : i.name = "" := String.toList_eq_nil_iff.mp (List.append_eq_nil_iff.mp none).2
    have known := legible.known
    rw [noName] at known
    cases known

theorem count_lt (legible : i.Legible) (fits : i.nanos < wordBound * nanosPerSecond) :
    i.count < wordBound := by
  rcases Nat.eq_zero_or_pos i.unit.seconds with zero | positive
  · have positive : 0 < i.unit.subNanos := by
      revert zero
      cases i.unit <;> decide
    have room : nanosPerSecond < wordBound := by decide
    calc i.count ≤ i.count * i.unit.subNanos := Nat.le_mul_of_pos_right _ positive
      _ < nanosPerSecond := legible.below
      _ < wordBound := room
  · exact Nat.lt_of_le_of_lt (Nat.le_mul_of_pos_right _ positive) (seconds_lt fits)

end Item

theorem addCount?_eq_some {i : Item} (legible : i.Legible) (d : Duration)
    (fits : d.nanos + i.nanos < wordBound * nanosPerSecond) :
    ∃ sum, d.addCount? i.count none i.unit = some sum ∧ sum.nanos = d.nanos + i.nanos := by
  have below := legible.below
  have split := i.nanos_eq
  have whole : d.seconds * nanosPerSecond + d.fraction = d.nanos := Nat.div_add_mod' d.nanos nanosPerSecond
  have fraction : d.fraction < nanosPerSecond := Nat.mod_lt _ (by decide)
  have seconds := Item.seconds_lt (i := i) (by omega)
  have room : 2 * nanosPerSecond < wordBound := by decide
  have total : (d.seconds + i.count * i.unit.seconds) * nanosPerSecond +
      (d.fraction + i.count * i.unit.subNanos) = d.nanos + i.nanos := by
    rw [split, Nat.add_mul]
    omega
  have sum : d.plus? (i.count * i.unit.seconds) (i.count * i.unit.subNanos) =
      some ⟨d.nanos + i.nanos, fits⟩ := by
    rw [plus?, bounded?_eq_some (by omega), Option.bind_eq_bind, Option.bind_some]
    exact ofParts?_eq_some total fits
  refine ⟨⟨d.nanos + i.nanos, fits⟩, ?_, rfl⟩
  rw [addCount?, bounded?_eq_some seconds, bounded?_eq_some (by omega)]
  rw [Option.bind_eq_bind, Option.bind_some, Option.bind_eq_bind, Option.bind_some, sum]
  rfl

theorem readFrom?_item {i : Item} (legible : i.Legible) (d : Duration)
    (fits : d.nanos + i.nanos < wordBound * nanosPerSecond) {rest : List Char}
    (divided : rest = [] ∨ ∃ tail, rest = ' ' :: tail) :
    ∃ sum : Duration, sum.nanos = d.nanos + i.nanos ∧
      readFrom? .between d (i.text.toList ++ rest) = readFrom? .between sum rest := by
  obtain ⟨sum, added, nanos⟩ := addCount?_eq_some legible d fits
  have known : TimeUnit.ofName? (String.ofList i.name.toList) = some i.unit := by
    rw [String.ofList_toList]
    exact legible.known
  refine ⟨sum, nanos, ?_⟩
  have small := Item.count_lt legible (by omega)
  rw [Item.text_eq, List.append_assoc, readFrom?_part small known legible.letters d divided, added,
    Option.bind_some]

theorem readFrom?_separated {items : List Item} (legible : ∀ i ∈ items, i.Legible) (d : Duration)
    (fits : d.nanos + (items.map Item.nanos).sum < wordBound * nanosPerSecond) :
    ∃ sum : Duration, sum.nanos = d.nanos + (items.map Item.nanos).sum ∧
      readFrom? .between d (Item.separated items) = some sum := by
  induction items generalizing d with
  | nil => exact ⟨d, rfl, rfl⟩
  | cons i items ih =>
      rw [List.map_cons, List.sum_cons] at fits ⊢
      obtain ⟨sum, nanos, read⟩ := readFrom?_item (legible i List.mem_cons_self) d (by omega)
        (Item.separated_cases items)
      have others := fun j member => legible j (List.mem_cons_of_mem i member)
      obtain ⟨total, same, rest⟩ := ih others sum (by omega)
      refine ⟨total, by omega, ?_⟩
      calc readFrom? .between d (Item.separated (i :: items))
          = readFrom? .between d (i.text.toList ++ Item.separated items) := by
            rw [Item.separated, List.flatMap_cons, List.cons_append, readFrom?_blank, Item.separated]
        _ = some total := read.trans rest

/-! ## The text of a duration -/

def pluralName (count : Nat) (unit : String) : String := if 1 < count then unit ++ "s" else unit

def items (d : Duration) : List Item :=
  let rest := d.seconds % 31557600
  let days := rest % 2630016
  let seconds := days % 86400
  [⟨d.seconds / 31557600, .year, pluralName (d.seconds / 31557600) "year"⟩,
   ⟨rest / 2630016, .month, pluralName (rest / 2630016) "month"⟩,
   ⟨days / 86400, .day, pluralName (days / 86400) "day"⟩,
   ⟨seconds / 3600, .hour, "h"⟩, ⟨seconds % 3600 / 60, .minute, "m"⟩, ⟨seconds % 60, .second, "s"⟩,
   ⟨d.fraction / 1000000, .milli, "ms"⟩, ⟨d.fraction / 1000 % 1000, .micro, "us"⟩,
   ⟨d.fraction % 1000, .nano, "ns"⟩]

theorem part_eq (i : Item) : part i.count i.name = (Item.written [i]).map Item.text := by
  by_cases zero : i.count = 0
  · simp [part, Item.written, zero]
  · simp [part, Item.written, zero, Item.text]

theorem toText_eq (d : Duration) :
    d.toText = if (Item.written d.items).isEmpty then "0s"
      else " ".intercalate ((Item.written d.items).map Item.text) := by
  have parts : (Item.written d.items).map Item.text = d.items.flatMap fun i => part i.count i.name := by
    induction d.items with
    | nil => rfl
    | cons i items ih =>
        rw [List.flatMap_cons, ← ih, part_eq, ← List.map_append, ← Item.written_append]
        rfl
  have empty : (Item.written d.items).isEmpty = (d.items.flatMap fun i => part i.count i.name).isEmpty := by
    rw [← parts, List.isEmpty_map]
  rw [empty, parts]
  simp only [toText, items, List.flatMap_cons, List.flatMap_nil, List.append_nil, List.append_assoc]
  rfl

theorem sum_items (d : Duration) : (d.items.map Item.nanos).sum = d.nanos := by
  rw [← Nat.div_add_mod' d.nanos nanosPerSecond, ← Duration.seconds, ← fraction, items]
  repeat rw [List.map_cons, List.sum_cons]
  rw [List.map_nil, List.sum_nil, Nat.add_zero]
  simp only [Item.nanos, TimeUnit.seconds, TimeUnit.subNanos, nanosPerSecond]
  generalize d.seconds = seconds
  generalize d.fraction = fraction
  omega

def Names (unit : TimeUnit) (name : String) : Prop :=
  TimeUnit.ofName? name = some unit ∧ name.toList.all isUnitLetter = true

instance (unit : TimeUnit) (name : String) : Decidable (Names unit name) :=
  inferInstanceAs (Decidable (_ ∧ _))

theorem legible_items (d : Duration) : ∀ i ∈ d.items, i.Legible := by
  have fraction : d.fraction < 1000000000 := Nat.mod_lt _ (by decide)
  have named (count : Nat) {unit : TimeUnit} {name : String} (names : Names unit name)
      (below : count * unit.subNanos < 1000000000) : (Item.mk count unit name).Legible :=
    ⟨names.1, List.all_eq_true.mp names.2, below⟩
  have whole (count : Nat) {unit : TimeUnit} {name : String} (names : Names unit name)
      (none : unit.subNanos = 0) : (Item.mk count unit name).Legible :=
    named count names (by simp [none])
  have plural (count : Nat) {unit : TimeUnit} {name : String} (one : Names unit name)
      (more : Names unit (name ++ "s")) (none : unit.subNanos = 0) :
      (Item.mk count unit (pluralName count name)).Legible := by
    refine whole count ?_ none
    unfold pluralName
    split
    · exact more
    · exact one
  simp only [items, List.forall_mem_cons, List.not_mem_nil, false_implies, implies_true, and_true]
  refine ⟨plural _ (by decide) (by decide) rfl, plural _ (by decide) (by decide) rfl,
    plural _ (by decide) (by decide) rfl, whole _ (by decide) rfl, whole _ (by decide) rfl,
    whole _ (by decide) rfl, named _ (by decide) ?_, named _ (by decide) ?_, named _ (by decide) ?_⟩
  all_goals
    simp only [TimeUnit.subNanos]
    omega

theorem ofText?_toText (d : Duration) : ofText? d.toText = some d := by
  have sum : ((Item.written d.items).map Item.nanos).sum = d.nanos := (Item.sum_written _).trans d.sum_items
  have legible : ∀ i ∈ Item.written d.items, i.Legible := fun i member =>
    d.legible_items i ((List.mem_filter.mp member).1)
  rw [toText_eq]
  cases shown : Item.written d.items with
  | nil =>
      rw [shown] at sum
      obtain rfl : d = zero := ext_nanos sum.symm
      rfl
  | cons i items =>
      rw [shown] at sum legible
      have total : zero.nanos + ((i :: items).map Item.nanos).sum = d.nanos := by
        rw [sum]
        exact Nat.zero_add _
      obtain ⟨result, same, read⟩ := readFrom?_separated legible zero (total ▸ d.nanos_lt)
      have text := Item.intercalate_text i items
      rw [if_neg (by simp)]
      generalize " ".intercalate ((i :: items).map Item.text) = written at text ⊢
      obtain ⟨c, tail, first, digit, more⟩ := Item.text_cons (legible i List.mem_cons_self)
      rw [first, List.cons_append] at text
      -- The reader has its own answers for `0` and for blank text, and this is neither.
      have notZero : written ≠ "0" := by
        rintro rfl
        have one : "0".toList = ['0'] := rfl
        have nothing := (List.cons.inj (one.symm.trans text)).2
        exact more (List.append_eq_nil_iff.mp nothing.symm).1
      have notBlank : ¬ written.toList.all Text.isBlank = true := by
        rw [text, List.all_cons, not_isBlank_of_isDigit digit, Bool.false_and]
        exact Bool.false_ne_true
      rw [ofText?, if_neg notZero, if_neg notBlank, text, ← List.cons_append, ← first]
      rw [Item.separated, List.flatMap_cons, List.cons_append, readFrom?_blank] at read
      rw [Item.separated, read]
      exact congrArg some (ext_nanos (same.trans total))

end LedgerDrill.Duration
