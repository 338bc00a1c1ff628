import LedgerDrill.Proofs.Outcome.Vocabulary

namespace LedgerDrill

namespace Text

variable {text word : List Char}

def IsBare (text : List Char) : Prop :=
  text.head?.all (!isBlank ·) = true ∧ text.getLast?.all (!isBlank ·) = true

theorem head?_trimStart (text : List Char) : (trimStart text).head?.all (!isBlank ·) = true := by
  have first := List.head?_dropWhile_not isBlank text
  unfold trimStart
  cases head : (text.dropWhile isBlank).head? with
  | none => rfl
  | some c =>
      rw [head] at first
      simpa using first

theorem getLast?_trimEnd (text : List Char) : (trimEnd text).getLast?.all (!isBlank ·) = true := by
  rw [trimEnd, List.getLast?_reverse]
  exact head?_trimStart text.reverse

theorem exists_trimStart (text : List Char) :
    ∃ before, (∀ c ∈ before, isBlank c = true) ∧ text = before ++ trimStart text :=
  ⟨text.takeWhile isBlank, List.all_eq_true.mp List.all_takeWhile, List.takeWhile_append_dropWhile.symm⟩

theorem exists_trimEnd (text : List Char) :
    ∃ after, (∀ c ∈ after, isBlank c = true) ∧ text = trimEnd text ++ after := by
  obtain ⟨after, blanks, split⟩ := exists_trimStart text.reverse
  refine ⟨after.reverse, fun c member => blanks c (List.mem_reverse.mp member), ?_⟩
  rw [trimEnd, ← List.reverse_append]
  exact List.reverse_eq_iff.mp split

theorem exists_trim (text : List Char) :
    ∃ before after, (∀ c ∈ before ++ after, isBlank c = true) ∧ text = before ++ trim text ++ after := by
  obtain ⟨before, blanksBefore, splitStart⟩ := exists_trimStart text
  obtain ⟨after, blanksAfter, splitEnd⟩ := exists_trimEnd (trimStart text)
  refine ⟨before, after, List.forall_mem_append.mpr ⟨blanksBefore, blanksAfter⟩, ?_⟩
  rw [trim, List.append_assoc, ← splitEnd]
  exact splitStart

theorem isBare_trim (text : List Char) : IsBare (trim text) := by
  refine ⟨?_, getLast?_trimEnd _⟩
  obtain ⟨after, -, split⟩ := exists_trimEnd (trimStart text)
  have first := head?_trimStart text
  rw [split] at first
  rw [trim]
  cases kept : trimEnd (trimStart text) with
  | nil => rfl
  | cons c rest => simpa [kept] using first

theorem infix_trimStart (first : word.head?.any (!isBlank ·) = true) (inside : word <:+: text) :
    word <:+: trimStart text := by
  induction text with
  | nil => exact inside
  | cons c rest ih =>
      by_cases blank : isBlank c = true
      · have skipped : trimStart (c :: rest) = trimStart rest := by simp [trimStart, blank]
        rw [skipped]
        rcases List.infix_cons_iff.mp inside with ⟨more, begins⟩ | later
        · cases word with
          | nil => cases first
          | cons d word =>
              cases begins
              simp [blank] at first
        · exact ih later
      · have same : trimStart (c :: rest) = c :: rest := by simp [trimStart, blank]
        rwa [same]

theorem infix_trim (first : word.head?.any (!isBlank ·) = true) (last : word.getLast?.any (!isBlank ·) = true)
    (inside : word <:+: text) : word <:+: trim text := by
  have reversed : word.reverse <:+: trimStart (trimStart text).reverse :=
    infix_trimStart (by rwa [List.head?_reverse]) (List.reverse_infix.mpr (infix_trimStart first inside))
  exact List.reverse_infix.mp (by rwa [trim, trimEnd, List.reverse_reverse])

end Text

namespace Outcome.Label

variable {text line name before after kept word rest : List Char}

/-! ## Names -/

/-- The name of a transaction as it is hidden: `MTM-`, at least one more character, and a closing parenthesis, all on
one line. -/
def IsName (name : List Char) : Prop :=
  ∃ inner, inner ≠ [] ∧ '\n' ∉ inner ∧ name = "MTM-".toList ++ (inner ++ [')'])

/-- No name stands in the text. -/
def IsNameless (text : List Char) : Prop := ∀ name, IsName name → ¬ name <:+: text

theorem startsName_iff : startsName text = true ↔ ∃ inner, inner ≠ [] ∧ text = "MTM-".toList ++ inner := by
  constructor
  · intro starts
    unfold startsName at starts
    split at starts
    · next c rest => exact ⟨c :: rest, List.cons_ne_nil _ _, rfl⟩
    · cases starts
  · rintro ⟨inner, some, rfl⟩
    obtain ⟨c, rest, rfl⟩ := List.exists_cons_of_ne_nil some
    rfl

theorem beforeName?_leftmost (split : text = before ++ name) (starts : startsName name = true) :
    ∃ kept, beforeName? text = some kept ∧ kept.length ≤ before.length := by
  induction text generalizing before with
  | nil =>
      obtain ⟨rfl, rfl⟩ := List.append_eq_nil_iff.mp split.symm
      cases starts
  | cons c rest ih =>
      rw [beforeName?]
      by_cases here : startsName (c :: rest) = true
      · exact ⟨[], if_pos here, Nat.zero_le _⟩
      · cases before with
        | nil => exact absurd (split ▸ starts) here
        | cons d before =>
            obtain ⟨rfl, later⟩ := List.cons.inj split
            obtain ⟨kept, found, short⟩ := ih later
            exact ⟨c :: kept, by rw [if_neg here, found]; rfl, Nat.succ_le_succ short⟩

theorem exists_close (split : kept ++ after = word ++ ')' :: rest) (noClose : ')' ∉ after) :
    ∃ more, kept = word ++ ')' :: more ∧ rest = more ++ after := by
  rcases List.append_eq_append_iff.mp split with ⟨more, rfl, rfl⟩ | ⟨more, rfl, same⟩
  · exact absurd (by simp) noClose
  · cases more with
    | nil =>
        rw [List.nil_append] at same
        exact absurd (same ▸ List.mem_cons_self) noClose
    | cons c more =>
        obtain ⟨rfl, rfl⟩ := List.cons.inj same
        exact ⟨more, rfl, rfl⟩

theorem last_close (split : before ++ ')' :: after = word ++ ')' :: rest) (noClose : ')' ∉ after) :
    word <+: before ∧ after.length ≤ rest.length := by
  rw [List.append_cons] at split
  obtain ⟨more, same, rfl⟩ := exists_close split noClose
  have lengths := congrArg List.length same
  simp only [List.length_append, List.length_cons, List.length_nil] at lengths
  refine ⟨List.prefix_of_prefix_length_le ⟨_, same.symm⟩ (List.prefix_append _ _) ?_, ?_⟩
  · omega
  · rw [List.length_append]
    omega

theorem name_between (isName : IsName name) (split : line = word ++ (name ++ rest)) :
    ∃ before after kept, cutAtLastClose? line = some (before, after) ∧ beforeName? before = some kept ∧
      kept.length ≤ word.length ∧ after.length ≤ rest.length := by
  obtain ⟨inner, some, -, rfl⟩ := isName
  have closed : line = (word ++ ("MTM-".toList ++ inner)) ++ ')' :: rest := by simp [split]
  cases cut : cutAtLastClose? line with
  | none =>
      have absent := cutAtLastClose?_eq_none_iff.mp cut
      rw [closed] at absent
      exact absurd (by simp) absent
  | some parts =>
      obtain ⟨before, after⟩ := parts
      have whole := eq_append_of_cutAtLastClose? cut
      obtain ⟨⟨more, rfl⟩, short⟩ := last_close (whole.symm.trans closed) (close_notMem_of_cutAtLastClose? cut)
      have starts : startsName ("MTM-".toList ++ (inner ++ more)) = true :=
        startsName_iff.mpr ⟨_, List.append_ne_nil_of_left_ne_nil some more, rfl⟩
      have named : word ++ ("MTM-".toList ++ inner) ++ more = word ++ ("MTM-".toList ++ (inner ++ more)) := by simp
      obtain ⟨kept, found, early⟩ := beforeName?_leftmost named starts
      exact ⟨_, after, kept, rfl, found, early, short⟩

theorem censorLine_cases (oneLine : '\n' ∉ line) :
    IsNameless line ∧ censorLine line = line ∨
      ∃ kept name after, line = kept ++ (name ++ after) ∧ censorLine line = kept ++ (censored ++ after) ∧
        IsName name ∧ ')' ∉ after ∧
        ∀ word other rest, IsName other → line = word ++ (other ++ rest) →
          kept.length ≤ word.length ∧ after.length ≤ rest.length := by
  unfold censorLine
  split
  · next uncut =>
      refine Or.inl ⟨fun name isName ⟨word, rest, split⟩ => ?_, rfl⟩
      obtain ⟨_, _, _, cut, -⟩ := name_between isName (split.symm.trans (List.append_assoc ..))
      rw [uncut] at cut
      cases cut
  next before after cut =>
  have whole := eq_append_of_cutAtLastClose? cut
  split
  · next unnamed =>
      refine Or.inl ⟨fun name isName ⟨word, rest, split⟩ => ?_, rfl⟩
      obtain ⟨_, _, _, cut', named, -⟩ := name_between isName (split.symm.trans (List.append_assoc ..))
      cases cut.symm.trans cut'
      rw [unnamed] at named
      cases named
  · next kept named =>
      obtain ⟨name, rfl, starts⟩ := exists_name_of_beforeName? named
      obtain ⟨inner, some, rfl⟩ := startsName_iff.mp starts
      have split : line = kept ++ (("MTM-".toList ++ (inner ++ [')'])) ++ after) := by simp [whole]
      have isName : IsName ("MTM-".toList ++ (inner ++ [')'])) :=
        ⟨inner, some, fun broken => oneLine (by rw [whole]; simp [broken]), rfl⟩
      refine Or.inr ⟨kept, _, after, split, by simp, isName, close_notMem_of_cutAtLastClose? cut, ?_⟩
      -- Any other name of the line would have been cut at the same bracket, and begun no earlier.
      intro word other rest isName split
      obtain ⟨_, _, _, cut', named', early, short⟩ := name_between isName split
      cases cut.symm.trans cut'
      cases named.symm.trans named'
      exact ⟨early, short⟩

theorem censorLine_of_nameless (oneLine : '\n' ∉ line) (nameless : IsNameless line) : censorLine line = line := by
  rcases censorLine_cases oneLine with ⟨-, same⟩ | ⟨kept, name, after, split, -, isName, -⟩
  · exact same
  · exact absurd ⟨kept, after, by rw [split, List.append_assoc]⟩ (nameless name isName)

theorem isNameless_censorLine (oneLine : '\n' ∉ line) : IsNameless (censorLine line) := by
  rcases censorLine_cases oneLine with ⟨nameless, same⟩ | ⟨kept, hidden, after, rfl, same, -, noClose, first⟩
  · rwa [same]
  rw [same]
  rintro name isName ⟨word, rest, split⟩
  obtain ⟨inner, some, oneLine', rfl⟩ := id isName
  -- The name ends in a parenthesis, so all of it stands in what was kept.
  have tail : ')' ∉ censored ++ after := by
    rw [List.mem_append, not_or]
    exact ⟨by decide, noClose⟩
  have closed : kept ++ (censored ++ after) = (word ++ ("MTM-".toList ++ inner)) ++ ')' :: rest :=
    split.symm.trans (by simp)
  obtain ⟨more, rfl, -⟩ := exists_close closed tail
  have early := (first word _ (more ++ (hidden ++ after)) isName (by simp)).1
  simp only [List.length_append, List.length_cons] at early
  omega

/-! ## Texts -/

theorem prefix_of_break (line : List Char) (oneLine : '\n' ∉ name) (begins : name <+: line ++ '\n' :: rest) :
    name <+: line := by
  rcases List.prefix_or_prefix_of_prefix begins (List.prefix_append line _) with short | ⟨more, rfl⟩
  · exact short
  · rw [List.prefix_append_right_inj] at begins
    cases more with
    | nil => simp
    | cons c more =>
        obtain ⟨rfl, -⟩ := List.cons_prefix_cons.mp begins
        exact absurd (by simp) oneLine

theorem infix_of_break (oneLine : '\n' ∉ name) (inside : name <:+: line ++ '\n' :: rest) :
    name <:+: line ∨ name <:+: rest := by
  induction line with
  | nil =>
      rcases List.infix_cons_iff.mp inside with begins | later
      · exact Or.inl (prefix_of_break [] oneLine begins).isInfix
      · exact Or.inr later
  | cons c line ih =>
      rcases List.infix_cons_iff.mp inside with begins | later
      · exact Or.inl (prefix_of_break (c :: line) oneLine begins).isInfix
      · exact (ih later).imp_left fun inside => inside.trans (List.suffix_cons c line).isInfix

theorem IsName.oneLine (isName : IsName name) : '\n' ∉ name := by
  obtain ⟨inner, -, oneLine, rfl⟩ := isName
  simp only [List.mem_append, not_or]
  exact ⟨by decide, oneLine, by decide⟩

theorem isNameless_break : IsNameless (line ++ '\n' :: rest) ↔ IsNameless line ∧ IsNameless rest := by
  constructor
  · intro nameless
    refine ⟨fun name isName inside => nameless name isName ?_, fun name isName inside => nameless name isName ?_⟩
    · exact inside.trans (List.prefix_append _ _).isInfix
    · exact inside.trans ((List.suffix_cons '\n' rest).trans (List.suffix_append _ _)).isInfix
  · rintro ⟨here, later⟩ name isName inside
    exact (infix_of_break isName.oneLine inside).elim (here name isName) (later name isName)

/-- A text is one line, or a line and what follows its end. -/
theorem byLines {motive : List Char → Prop} (last : ∀ line, '\n' ∉ line → motive line)
    (more : ∀ line rest, '\n' ∉ line → motive rest → motive (line ++ '\n' :: rest)) (text : List Char) :
    motive text := by
  by_cases broken : '\n' ∈ text
  · obtain ⟨line, rest, split, oneLine⟩ := List.eq_append_cons_of_mem broken
    have shorter : rest.length < text.length := by
      rw [split, List.length_append, List.length_cons]
      omega
    exact split ▸ more line rest oneLine (byLines last more rest)
  · exact last text broken
termination_by text.length

theorem censor_break (oneLine : '\n' ∉ line) (rest : List Char) :
    censor (line ++ '\n' :: rest) = censorLine line ++ '\n' :: censor rest := by
  have inLine : ∀ c ∈ line, (c != '\n') = true := by
    intro c member
    rw [bne_iff_ne]
    rintro rfl
    exact oneLine member
  have taken : (line ++ '\n' :: rest).takeWhile (· != '\n') = line := by
    rw [List.takeWhile_append_of_pos inLine]
    simp
  have left : (line ++ '\n' :: rest).dropWhile (· != '\n') = '\n' :: rest := by
    rw [List.dropWhile_append_of_pos inLine]
    simp
  rw [censor, taken]
  split
  · next none => cases left.symm.trans none
  · next found =>
      cases left.symm.trans found
      rfl

theorem isNameless_censor (text : List Char) : IsNameless (censor text) := by
  induction text using byLines with
  | last line oneLine =>
      rw [censor_of_line oneLine]
      exact isNameless_censorLine oneLine
  | more line rest oneLine ih =>
      rw [censor_break oneLine]
      exact isNameless_break.mpr ⟨isNameless_censorLine oneLine, ih⟩

theorem censor_of_nameless (nameless : IsNameless text) : censor text = text := by
  induction text using byLines with
  | last line oneLine =>
      rw [censor_of_line oneLine]
      exact censorLine_of_nameless oneLine nameless
  | more line rest oneLine ih =>
      obtain ⟨here, later⟩ := isNameless_break.mp nameless
      rw [censor_break oneLine, censorLine_of_nameless oneLine here, ih later]

/-! ## Ends -/

theorem any_or {p : Char → Bool} {o o' : Option Char} (shown : o.any p = true) : (o.or o').any p = true := by
  cases o with
  | none => cases shown
  | some c => exact shown

theorem all_of_any {p : Char → Bool} {o : Option Char} (shown : o.any p = true) : o.all p = true := by
  cases o with
  | none => rfl
  | some c => exact shown

theorem head?_censorLine (oneLine : '\n' ∉ line) (first : line.head?.any (!Text.isBlank ·) = true) :
    (censorLine line).head?.any (!Text.isBlank ·) = true := by
  rcases censorLine_cases oneLine with ⟨-, same⟩ | ⟨kept, name, after, rfl, same, -⟩
  · rwa [same]
  · rw [same]
    cases kept with
    | nil => rfl
    | cons c kept => exact first

theorem getLast?_censorLine (oneLine : '\n' ∉ line) (last : line.getLast?.any (!Text.isBlank ·) = true) :
    (censorLine line).getLast?.any (!Text.isBlank ·) = true := by
  rcases censorLine_cases oneLine with ⟨-, same⟩ | ⟨kept, name, after, rfl, same, -⟩
  · rwa [same]
  · rw [same, List.getLast?_append, List.getLast?_append]
    rw [List.getLast?_append, List.getLast?_append] at last
    cases ending : after.getLast? with
    | none => rfl
    | some c =>
        rw [ending] at last
        exact last

theorem head?_censor (first : text.head?.any (!Text.isBlank ·) = true) :
    (censor text).head?.any (!Text.isBlank ·) = true := by
  induction text using byLines with
  | last line oneLine =>
      rw [censor_of_line oneLine]
      exact head?_censorLine oneLine first
  | more line rest oneLine _ =>
      rw [censor_break oneLine, List.head?_append]
      cases line with
      | nil => exact (Bool.false_ne_true first).elim
      | cons c line => exact any_or (head?_censorLine oneLine first)

theorem getLast?_censor (last : text.getLast?.any (!Text.isBlank ·) = true) :
    (censor text).getLast?.any (!Text.isBlank ·) = true := by
  induction text using byLines with
  | last line oneLine =>
      rw [censor_of_line oneLine]
      exact getLast?_censorLine oneLine last
  | more line rest oneLine ih =>
      rw [List.append_cons, List.getLast?_append] at last
      rw [censor_break oneLine, List.append_cons, List.getLast?_append]
      cases ending : rest.getLast? with
      | none =>
          rw [ending, Option.none_or, List.getLast?_concat] at last
          exact (Bool.false_ne_true last).elim
      | some c =>
          rw [ending] at last ih
          exact any_or (ih last)

theorem isBare_censor (bare : Text.IsBare text) : Text.IsBare (censor text) := by
  obtain ⟨first, last⟩ := bare
  cases text with
  | nil =>
      rw [censor_of_line List.not_mem_nil]
      exact ⟨rfl, rfl⟩
  | cons c rest =>
      rw [List.getLast?_cons] at last
      exact ⟨all_of_any (head?_censor first), all_of_any (getLast?_censor (List.getLast?_cons ▸ last))⟩

/-! ## Labels -/

theorem contains_trim_iff : contains abortMarker (Text.trim text) = true ↔ abortMarker <:+: text := by
  rw [contains_iff_isInfix]
  constructor
  · intro inside
    obtain ⟨before, after, -, split⟩ := Text.exists_trim text
    exact inside.trans ⟨before, after, split.symm⟩
  · exact Text.infix_trim (by decide) (by decide)

theorem normalize_of_marked (marked : abortMarker <:+: text) : normalize text = censor (Text.trim text) :=
  if_pos (contains_trim_iff.mpr marked)

theorem normalize_of_not_marked (unmarked : ¬ abortMarker <:+: text) : normalize text = Text.trim text :=
  if_neg fun found => unmarked (contains_trim_iff.mp found)

theorem isBare_normalize (text : List Char) : Text.IsBare (normalize text) := by
  by_cases marked : abortMarker <:+: text
  · rw [normalize_of_marked marked]
    exact isBare_censor (Text.isBare_trim text)
  · rw [normalize_of_not_marked marked]
    exact Text.isBare_trim text

theorem normalize_normalize (text : List Char) : normalize (normalize text) = normalize text := by
  obtain ⟨first, last⟩ := isBare_normalize text
  have trimmed : Text.trim (normalize text) = normalize text := trim_eq_self first last
  by_cases again : abortMarker <:+: normalize text
  · rw [normalize_of_marked again, trimmed]
    by_cases marked : abortMarker <:+: text
    · rw [normalize_of_marked marked]
      exact censor_of_nameless (isNameless_censor _)
    · rw [normalize_of_not_marked marked, contains_iff_isInfix.symm.trans contains_trim_iff] at again
      exact absurd again marked
  · rw [normalize_of_not_marked again, trimmed]

/-- A label is its own label and has no blank at its ends. The label of a text with the marker of an abort names no
transaction; that of any other text is the text without the blanks at its ends. -/
theorem labels_are_final (message : String) :
    let label := ofText message
    ofText label = label ∧ Text.IsBare label.toList ∧
    (abortMarker <:+: message.toList → IsNameless label.toList) ∧
    (¬ abortMarker <:+: message.toList → label.toList = Text.trim message.toList ∧
      ∃ before after, (∀ c ∈ before ++ after, Text.isBlank c = true) ∧
        message.toList = before ++ label.toList ++ after) := by
  intro label
  have shown : label.toList = normalize message.toList := String.toList_ofList
  refine ⟨?_, ?_, fun marked => ?_, fun unmarked => ?_⟩
  · rw [ofText, shown, normalize_normalize]
    rfl
  · rw [shown]
    exact isBare_normalize _
  · rw [shown, normalize_of_marked marked]
    exact isNameless_censor _
  · rw [shown, normalize_of_not_marked unmarked]
    exact ⟨rfl, Text.exists_trim _⟩

example : ofText " MTM-MTM-1) is aborted on node 2)\nMTM-) MTM-7\n" = "<censored>\nMTM-) MTM-7" := by
  decide +kernel

end Outcome.Label

end LedgerDrill
