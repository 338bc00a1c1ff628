import LedgerDrill.Json.Error
import LedgerDrill.Text.Basic

namespace LedgerDrill.Json

def isControl (c : Char) : Bool := c.toNat < 0x20

def escape (c : Char) : List Char :=
  match c with
  | '"' => ['\\', '"']
  | '\\' => ['\\', '\\']
  | '\x08' => ['\\', 'b']
  | '\x0c' => ['\\', 'f']
  | '\n' => ['\\', 'n']
  | '\r' => ['\\', 'r']
  | '\t' => ['\\', 't']
  | _ =>
    if isControl c then
      ['\\', 'u', '0', '0', (c.toNat / 16).digitChar, (c.toNat % 16).digitChar]
    else [c]

def writeString (text : List Char) : List Char := '"' :: text.flatMap escape ++ ['"']

def writeBetween (opening closing : Char) (parts : List (List Char)) : List Char :=
  opening :: [','].intercalate parts ++ [closing]

def writeMember (name : String) (value : List Char) : List Char :=
  writeString name.toList ++ ':' :: value

def writeObject (members : List (List Char)) : List Char := writeBetween '\x7b' '\x7d' members

def writeList (elements : List (List Char)) : List Char := writeBetween '[' ']' elements

def writeInt (value : Int) : List Char :=
  match value with
  | .ofNat n => Text.decimal n
  | .negSucc n => '-' :: Text.decimal (n + 1)

def unescape? : Char → Option Char
  | '"' => some '"'
  | '\\' => some '\\'
  | '/' => some '/'
  | 'b' => some '\x08'
  | 'f' => some '\x0c'
  | 'n' => some '\n'
  | 'r' => some '\r'
  | 't' => some '\t'
  | _ => none

def hexDigit? (c : Char) : Option Nat :=
  if '0' ≤ c ∧ c ≤ '9' then some (c.toNat - 48)
  else if 'a' ≤ c ∧ c ≤ 'f' then some (c.toNat - 87)
  else if 'A' ≤ c ∧ c ≤ 'F' then some (c.toNat - 55)
  else none

def isLeading (unit : Nat) : Bool := 0xD800 ≤ unit && unit ≤ 0xDBFF

def isTrailing (unit : Nat) : Bool := 0xDC00 ≤ unit && unit ≤ 0xDFFF

def ofPair (leading trailing : Nat) : Char :=
  Char.ofNat ((leading - 0xD800) * 0x400 + (trailing - 0xDC00) + 0x10000)

/-- How far the reading of a string has come. `hex` counts the digits of an escape by number that
have been read; `leading` is the surrogate that waits for its partner. -/
inductive StringState
  | plain
  | escape
  | hex (leading : Option Nat) (count value : Nat)
  | paired (leading : Nat)
  | pairedEscape (leading : Nat)
deriving DecidableEq, Repr

/-- The error for a text that breaks off an escape by number after `count` of its four digits: the
escape is wrong if four more bytes were there, and else the string has ended too early. -/
def hexError (count : Nat) (rest : List Char) : Error :=
  if 4 ≤ count + (String.ofList rest).utf8ByteSize then .invalidEscape else .endOfString

def readChars : StringState → List Char → Except Error (List Char × List Char)
  | .plain, '"' :: rest => .ok ([], rest)
  | .plain, '\\' :: rest => readChars .escape rest
  | .plain, c :: rest =>
    if isControl c then .error .controlCharacter
    else (readChars .plain rest).map fun (chars, tail) => (c :: chars, tail)
  | .escape, 'u' :: rest => readChars (.hex none 0 0) rest
  | .escape, c :: rest =>
    match unescape? c with
    | some d => (readChars .plain rest).map fun (chars, tail) => (d :: chars, tail)
    | none => .error .invalidEscape
  | .hex leading count value, c :: rest =>
    match hexDigit? c with
    | none => .error (hexError count (c :: rest))
    | some digit =>
      let value := 16 * value + digit
      if count < 3 then readChars (.hex leading (count + 1) value) rest
      else match leading with
        | none =>
          if isTrailing value then .error .loneSurrogate
          else if isLeading value then readChars (.paired value) rest
          else (readChars .plain rest).map fun (chars, tail) => (Char.ofNat value :: chars, tail)
        | some first =>
          if isTrailing value then
            (readChars .plain rest).map fun (chars, tail) => (ofPair first value :: chars, tail)
          else .error .loneSurrogate
  | .paired first, c :: rest =>
    if c = '\\' then readChars (.pairedEscape first) rest else .error .endOfHexEscape
  | .pairedEscape first, c :: rest =>
    if c = 'u' then readChars (.hex (some first) 0 0) rest else .error .endOfHexEscape
  | _, [] => .error .endOfString

def skipChars : StringState → List Char → Except Error (List Char)
  | .escape, 'u' :: rest => skipChars (.hex none 0 0) rest
  | .escape, c :: rest =>
    if (unescape? c).isSome then skipChars .plain rest else .error .invalidEscape
  | .hex leading count value, c :: rest =>
    match hexDigit? c with
    | none => .error (hexError count (c :: rest))
    | some _ =>
      if count < 3 then skipChars (.hex leading (count + 1) value) rest else skipChars .plain rest
  | _, '"' :: rest => .ok rest
  | _, '\\' :: rest => skipChars .escape rest
  | _, c :: rest => if isControl c then .error .controlCharacter else skipChars .plain rest
  | _, [] => .error .endOfString

end LedgerDrill.Json
