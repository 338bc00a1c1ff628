import LedgerDrill.Error

namespace LedgerDrill.Folder

def segments : List Char → List (List Char)
  | [] => [[]]
  | c :: rest =>
    if c = '/' then [] :: segments rest
    else
      match segments rest with
      | [] => [[c]]
      | s :: more => (c :: s) :: more

theorem segments_ne_nil (path : List Char) : segments path ≠ [] := by
  cases path with
  | nil => simp [segments]
  | cons c rest =>
    simp only [segments]
    split
    · simp
    · split <;> simp

theorem slash_notMem_of_mem_segments {path s : List Char} (h : s ∈ segments path) : '/' ∉ s := by
  induction path generalizing s with
  | nil => simp_all [segments]
  | cons c rest ih =>
    simp only [segments] at h
    split at h
    · rcases List.mem_cons.1 h with rfl | h
      · simp
      · exact ih h
    · next hc =>
      have hc : '/' ≠ c := fun h => hc h.symm
      split at h
      · rw [List.mem_singleton.1 h]
        exact fun h => hc (List.mem_singleton.1 h)
      · next s' more hs =>
        rcases List.mem_cons.1 h with rfl | h
        · exact fun h => (List.mem_cons.1 h).elim hc (ih (hs ▸ List.mem_cons_self))
        · exact ih (hs ▸ List.mem_cons_of_mem _ h)

def staysInFolders (segment : List Char) : Bool :=
  segment.isEmpty || segment = ['.'] || segment = ['.', '.']

def byteLength (text : List Char) : Nat := (String.ofList text).utf8ByteSize

def longestName : Nat := 255

def longestPath : Nat := 4095

def follow (file : Option ByteArray) : List (List Char) → Except FileFault ByteArray
  | [] => .error .isDirectory
  | segment :: rest =>
    if staysInFolders segment then follow file rest
    else if byteLength segment > longestName then .error .nameTooLong
    else
      match rest, file with
      | [], some content => .ok content
      | _, _ => .error .missing

def read (file : Option ByteArray) (path : String) : Except FileFault ByteArray :=
  if path.toList.contains '\x00' then .error .nulInName
  else if path.isEmpty then .error .missing
  else if path.utf8ByteSize > longestPath then .error .nameTooLong
  else follow file (segments path.toList)

end LedgerDrill.Folder
