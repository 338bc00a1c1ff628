import LedgerDrill.Text.Basic

namespace LedgerDrill.Outcome

def commit : String := "commit"

namespace Label

def abortMarker : List Char := "is aborted on node".toList

def censored : List Char := "<censored>".toList

def contains (needle : List Char) : List Char → Bool
  | [] => needle.isEmpty
  | c :: rest => needle.isPrefixOf (c :: rest) || contains needle rest

def cutAtLastClose? : List Char → Option (List Char × List Char)
  | [] => none
  | c :: rest =>
    match cutAtLastClose? rest with
    | some (before, after) => some (c :: before, after)
    | none => if c = ')' then some ([], rest) else none

theorem eq_append_of_cutAtLastClose? {line before after : List Char}
    (h : cutAtLastClose? line = some (before, after)) : line = before ++ ')' :: after := by
  induction line generalizing before with
  | nil => simp [cutAtLastClose?] at h
  | cons c rest ih =>
    simp only [cutAtLastClose?] at h
    split at h
    · next found => cases h; rw [ih found]; rfl
    · split at h
      · next isClose => cases h; rw [isClose]; rfl
      · contradiction

theorem cutAtLastClose?_eq_none_iff {line : List Char} :
    cutAtLastClose? line = none ↔ ')' ∉ line := by
  induction line with
  | nil => simp [cutAtLastClose?]
  | cons c rest ih =>
    simp only [cutAtLastClose?, List.mem_cons, not_or]
    split
    · next found =>
      have : ¬ ')' ∉ rest := fun h => by simp [ih.2 h] at found
      simp [this]
    · next missing =>
      split
      · next isClose => simp [isClose]
      · next notClose => exact ⟨fun _ => ⟨fun h => notClose h.symm, ih.1 missing⟩, fun _ => rfl⟩

theorem close_notMem_of_cutAtLastClose? {line before after : List Char}
    (h : cutAtLastClose? line = some (before, after)) : ')' ∉ after := by
  induction line generalizing before with
  | nil => simp [cutAtLastClose?] at h
  | cons c rest ih =>
    simp only [cutAtLastClose?] at h
    split at h
    · next found => cases h; exact ih found
    · next missing =>
      split at h
      · cases h; exact cutAtLastClose?_eq_none_iff.1 missing
      · contradiction

def startsName : List Char → Bool
  | 'M' :: 'T' :: 'M' :: '-' :: _ :: _ => true
  | _ => false

def beforeName? : List Char → Option (List Char)
  | [] => none
  | c :: rest =>
    if startsName (c :: rest) then some [] else (beforeName? rest).map (c :: ·)

theorem exists_name_of_beforeName? {text kept : List Char} (h : beforeName? text = some kept) :
    ∃ name, text = kept ++ name ∧ startsName name = true := by
  induction text generalizing kept with
  | nil => simp [beforeName?] at h
  | cons c rest ih =>
    simp only [beforeName?] at h
    split at h
    · next starts => cases h; exact ⟨_, rfl, starts⟩
    · obtain ⟨kept', found, rfl⟩ := Option.map_eq_some_iff.1 h
      obtain ⟨name, rfl, starts⟩ := ih found
      exact ⟨name, rfl, starts⟩

/-- Hides the name of a transaction in a line. The name reaches to the last closing parenthesis. -/
def censorLine (line : List Char) : List Char :=
  match cutAtLastClose? line with
  | none => line
  | some (before, after) =>
    match beforeName? before with
    | none => line
    | some kept => kept ++ censored ++ after

theorem length_dropWhile_le (p : Char → Bool) (text : List Char) :
    (text.dropWhile p).length ≤ text.length := by
  induction text with
  | nil => simp
  | cons c rest ih =>
    simp only [List.dropWhile_cons]
    split
    · exact Nat.le_succ_of_le ih
    · exact Nat.le_refl _

def censor (text : List Char) : List Char :=
  let line := text.takeWhile (· != '\n')
  match _cut : text.dropWhile (· != '\n') with
  | [] => censorLine line
  | lineEnd :: rest => censorLine line ++ lineEnd :: censor rest
termination_by text.length
decreasing_by
  have := length_dropWhile_le (· != '\n') text
  rw [_cut] at this
  exact this

def normalize (text : List Char) : List Char :=
  let trimmed := Text.trim text
  if contains abortMarker trimmed then censor trimmed else trimmed

def ofText (message : String) : String := String.ofList (normalize message.toList)

end Label

end LedgerDrill.Outcome
