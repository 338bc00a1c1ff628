import LedgerDrill.Json.Number
import LedgerDrill.Json.Strings

namespace LedgerDrill.Json
open Text (isDigit)

abbrev Reader (α : Type) := List Char → Except Error (α × List Char)

def isBlank (c : Char) : Bool := c == ' ' || c == '\n' || c == '\t' || c == '\r'

def skipBlanks (text : List Char) : List Char := text.dropWhile isBlank

def readWord : List Char → List Char → Except Error (List Char)
  | [], text => .ok text
  | _ :: _, [] => .error .endOfValue
  | letter :: word, c :: rest => if c = letter then readWord word rest else .error .expectedWord

/-- The error for a value that is not of the expected type. A scalar is read first, so a fault in
its spelling wins. -/
def mismatch (expected : String) (text : List Char) : Error :=
  let after {α : Type} (read : Except Error α) (found : α → Found) : Error :=
    match read with
    | .error e => e
    | .ok value => .invalidType (found value) expected
  match text with
  | 'n' :: rest => after (readWord ['u', 'l', 'l'] rest) fun _ => .null
  | 't' :: rest => after (readWord ['r', 'u', 'e'] rest) fun _ => .boolean true
  | 'f' :: rest => after (readWord ['a', 'l', 's', 'e'] rest) fun _ => .boolean false
  | '"' :: rest => after (readChars .plain rest) fun read => .string (String.ofList read.1)
  | '[' :: _ => .invalidType .sequence expected
  | '\x7b' :: _ => .invalidType .map expected
  | c :: _ =>
    if c = '-' || isDigit c then after (readNumber text) fun read => read.1.found
    else .expectedValue
  | [] => .endOfValue

def readStringAs {α : Type} (expected : String) (take : String → Except Error α) : Reader α :=
  fun text =>
    match skipBlanks text with
    | '"' :: rest => do
      let (chars, rest) ← readChars .plain rest
      return (← take (String.ofList chars), rest)
    | text => .error (mismatch expected text)

def readString : Reader String := readStringAs "a string" .ok

def readInteger (low high : Int) (expected : String) : Reader Int :=
  fun text =>
    let text := skipBlanks text
    if text.head?.any fun c => c == '-' || isDigit c then do
      let (number, rest) ← readNumber text
      match number.found with
      | .integer value =>
        if low ≤ value ∧ value ≤ high then .ok (value, rest)
        else .error (.invalidValue (.integer value) expected)
      | found => .error (.invalidType found expected)
    else .error (mismatch expected text)

def readNatural (bound : Nat) (expected : String) : Reader Nat := fun text => do
  let (value, rest) ← readInteger 0 (bound - 1) expected text
  return (value.toNat, rest)

def readOptional {α : Type} (read : Reader α) : Reader (Option α) := fun text =>
  match skipBlanks text with
  | 'n' :: rest => do return (none, ← readWord ['u', 'l', 'l'] rest)
  | text => do
    let (value, rest) ← read text
    return (some value, rest)

def readNull : Reader Unit := fun text =>
  match skipBlanks text with
  | 'n' :: rest => do return ((), ← readWord ['u', 'l', 'l'] rest)
  | text => .error (mismatch "unit" text)

def readColon (text : List Char) : Except Error (List Char) :=
  match skipBlanks text with
  | ':' :: rest => .ok rest
  | [] => .error .endOfObject
  | _ => .error .expectedColon

def openName (text : List Char) : Except Error (List Char) :=
  match skipBlanks text with
  | '"' :: rest => .ok rest
  | '\x7d' :: _ => .error .expectedValue
  | [] => .error .endOfObject
  | _ => .error .keyNotString

def readName {α : Type} (take : String → Except Error α) : Reader α :=
  fun text =>
    match skipBlanks text with
    | '\x7b' :: rest => do
      let (chars, rest) ← readChars .plain (← openName rest)
      let value ← take (String.ofList chars)
      let ((), rest) ← readNull (← readColon rest)
      match skipBlanks rest with
      | '\x7d' :: rest => .ok (value, rest)
      | [] => .error .endOfObject
      | _ => .error .expectedValue
    | '"' :: rest => do
      let (chars, rest) ← readChars .plain rest
      return (← take (String.ofList chars), rest)
    | [] => .error .endOfValue
    | _ => .error .expectedValue

def nextElement (first : Bool) (text : List Char) : Except Error (Option (List Char)) :=
  match skipBlanks text with
  | [] => .error .endOfList
  | ']' :: _ => .ok none
  | c :: rest =>
    if first then .ok (some (c :: rest))
    else if c = ',' then
      match skipBlanks rest with
      | ']' :: _ => .error .trailingComma
      | [] => .error .endOfValue
      | rest => .ok (some rest)
    else .error .expectedListCommaOrEnd

def endList (text : List Char) : Except Error (List Char) :=
  match skipBlanks text with
  | ']' :: rest => .ok rest
  | ',' :: rest =>
    match skipBlanks rest with
    | ']' :: _ => .error .trailingComma
    | _ => .error .trailingCharacters
  | [] => .error .endOfList
  | _ => .error .trailingCharacters

/-- Reads elements up to the end of the list. Each takes at least one character, so the length of
the text bounds their number. -/
def readElements {α : Type} (read : Reader α) : Nat → Bool → Reader (List α)
  | 0, _, _ => .error .endOfList
  | bound + 1, first, text => do
    match ← nextElement first text with
    | none => return ([], ← endList text)
    | some text =>
      let (value, rest) ← read text
      let (values, rest) ← readElements read bound false rest
      return (value :: values, rest)

def readList {α : Type} (read : Reader α) : Reader (List α) := fun text =>
  match skipBlanks text with
  | '[' :: rest => readElements read (rest.length + 1) true rest
  | text => .error (mismatch "a sequence" text)

def nextKey (first : Bool) (text : List Char) : Except Error (List Char ⊕ List Char) :=
  match skipBlanks text with
  | [] => .error .endOfObject
  | '\x7d' :: rest => .ok (.inr rest)
  | '"' :: rest => if first then .ok (.inl rest) else .error .expectedObjectCommaOrEnd
  | c :: rest =>
    if first then .error .keyNotString
    else if c = ',' then
      match skipBlanks rest with
      | '"' :: rest => .ok (.inl rest)
      | '\x7d' :: _ => .error .trailingComma
      | [] => .error .endOfValue
      | _ => .error .keyNotString
    else .error .expectedObjectCommaOrEnd

/-- What a reader of objects does with one member: it gets the key and the text behind it, which
begins with the colon. -/
abbrev Member (α : Type) := α → String → List Char → Except Error (α × List Char)

def readMembers {α : Type} (member : Member α) : Nat → Bool → α → Reader α
  | 0, _, _, _ => .error .endOfObject
  | bound + 1, first, seen, text => do
    match ← nextKey first text with
    | .inr rest => return (seen, rest)
    | .inl rest =>
      let (key, rest) ← readChars .plain rest
      let (seen, rest) ← member seen (String.ofList key) rest
      readMembers member bound false seen rest

def readObject {α : Type} (member : Member α) (start : α) : Reader α := fun text =>
  readMembers member (text.length + 1) true start text

def readMap {α β : Type} (read : Reader β) (insert : α → String → β → α) (start : α) : Reader α :=
  fun text =>
    match skipBlanks text with
    | '\x7b' :: rest => readObject (fun seen key text => do
        let (value, rest) ← read (← readColon text)
        return (insert seen key value, rest)) start rest
    | text => .error (mismatch "a map" text)

def readRecord {α : Type} (expected : String) (fields : Reader α) (members : Reader α) : Reader α :=
  fun text =>
    match skipBlanks text with
    | '[' :: rest => do
      let (value, rest) ← fields rest
      return (value, ← endList rest)
    | '\x7b' :: rest => members rest
    | text => .error (mismatch expected text)

def readDocument {α : Type} (read : Reader α) (text : String) : Except Error α := do
  let (value, rest) ← read text.toList
  if (skipBlanks rest).isEmpty then return value else .error .trailingCharacters

end LedgerDrill.Json
