import LedgerDrill.Json.Reader

namespace LedgerDrill.Json
open Text (isDigit)

inductive Bracket
  | list
  | object
deriving DecidableEq, Repr

def Bracket.close : Bracket → Char
  | .list => ']'
  | .object => '\x7d'

def Bracket.endError : Bracket → Error
  | .list => .endOfList
  | .object => .endOfObject

def Bracket.commaError : Bracket → Error
  | .list => .expectedListCommaOrEnd
  | .object => .expectedObjectCommaOrEnd

def skipScalar (text : List Char) : Except Error (List Char) :=
  match text with
  | [] => .error .endOfValue
  | 'n' :: rest => readWord ['u', 'l', 'l'] rest
  | 't' :: rest => readWord ['r', 'u', 'e'] rest
  | 'f' :: rest => readWord ['a', 'l', 's', 'e'] rest
  | '"' :: rest => skipChars .plain rest
  | c :: _ => if c = '-' || isDigit c then skipNumber text else .error .expectedValue

def skipKey (text : List Char) : Except Error (List Char) := do
  match skipBlanks text with
  | [] => .error .endOfObject
  | '"' :: rest => readColon (← skipChars .plain rest)
  | _ => .error .keyNotString

inductive SkipPoint
  | value
  | opened
  | ended
deriving DecidableEq, Repr

/-- Passes over what is left of a value inside the open brackets, the innermost first. Every round
takes a character or goes from an opened bracket to its first part, which `bound` counts. -/
def skipParts : Nat → SkipPoint → List Bracket → List Char → Except Error (List Char)
  | 0, _, _, _ => .error .endOfValue
  | _ + 1, .ended, [], text => .ok text
  | bound + 1, .value, stack, text =>
    match skipBlanks text with
    | '[' :: rest => skipParts bound .opened (.list :: stack) rest
    | '\x7b' :: rest => skipParts bound .opened (.object :: stack) rest
    | text => do skipParts bound .ended stack (← skipScalar text)
  | bound + 1, .opened, stack, text =>
    match stack with
    | [] => .ok text
    | bracket :: outer =>
      match skipBlanks text with
      | [] => .error bracket.endError
      | c :: rest =>
        if c = bracket.close then skipParts bound .ended outer rest
        else match bracket with
          | .list => skipParts bound .value stack (c :: rest)
          | .object => do skipParts bound .value stack (← skipKey (c :: rest))
  | bound + 1, .ended, bracket :: outer, text =>
    match skipBlanks text with
    | [] => .error bracket.endError
    | c :: rest =>
      if c = bracket.close then skipParts bound .ended outer rest
      else if c = ',' then
        match bracket with
        | .list => skipParts bound .value (bracket :: outer) rest
        | .object => do skipParts bound .value (bracket :: outer) (← skipKey rest)
      else .error bracket.commaError

def skipValue (text : List Char) : Except Error (List Char) :=
  skipParts (3 * text.length + 3) .value [] text

def skipMember (text : List Char) : Except Error (List Char) := do skipValue (← readColon text)

end LedgerDrill.Json
