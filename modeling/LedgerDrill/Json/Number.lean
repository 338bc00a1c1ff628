import LedgerDrill.Json.Error
import LedgerDrill.Text.Basic

namespace LedgerDrill.Json
open Text (isDigit digitValue)

inductive Number
  | natural (value : Nat)
  | negative (distance : Nat)
  | float (below : Bool) (value : Binary64)
deriving DecidableEq, Repr

def Number.found : Number → Found
  | .natural n => .integer n
  | .negative n => .integer (-(n : Int))
  | .float below value => .float below value

def takeSignificand (significand : Nat) : List Char → Nat × List Char
  | [] => (significand, [])
  | c :: rest =>
    let next := 10 * significand + digitValue c
    if next < wordBound then takeSignificand next rest else (significand, c :: rest)

def greatestTenPower : Nat := 308

/-- `significand * 10 ^ exponent` by one rounding of the significand and one of each product. -/
def scaleFloat (value : Binary64) (exponent : Int) : Except Error Binary64 :=
  if exponent.natAbs ≤ greatestTenPower then
    let power := Binary64.ofNat (Nat.pow 10 exponent.natAbs)
    if 0 ≤ exponent then
      let product := value.mul power
      if product.isInfinite then .error .numberOutOfRange else .ok product
    else .ok (value.div power)
  else if value.isZero then .ok value
  else if 0 ≤ exponent then .error .numberOutOfRange
  else scaleFloat (value.div (.ofNat (Nat.pow 10 greatestTenPower))) (exponent + greatestTenPower)
termination_by exponent.natAbs
decreasing_by
  simp only [greatestTenPower] at *
  omega

def exponentBound : Nat := 2147483648

def readExponent (negative : Bool) (significand : Nat) (shift : Int) (text : List Char) :
    Except Error (Number × List Char) :=
  let (downward, text) := match text with
    | '+' :: rest => (false, rest)
    | '-' :: rest => (true, rest)
    | _ => (false, text)
  match text with
  | [] => .error .endOfValue
  | c :: _ =>
    if !isDigit c then .error .invalidNumber
    else
      let exponent := Nat.ofDigitChars 10 (text.takeWhile isDigit) 0
      let rest := text.dropWhile isDigit
      if exponentBound ≤ exponent then
        if significand ≠ 0 ∧ downward = false then .error .numberOutOfRange
        else .ok (.float negative (Binary64.ofNat 0), rest)
      else
        let total := if downward then shift - exponent else shift + exponent
        (scaleFloat (Binary64.ofNat significand) total).map fun value =>
          (.float negative value, rest)

def readFloatEnd (negative : Bool) (significand : Nat) (shift : Int) (text : List Char) :
    Except Error (Number × List Char) :=
  match text with
  | 'e' :: rest => readExponent negative significand shift rest
  | 'E' :: rest => readExponent negative significand shift rest
  | _ => (scaleFloat (Binary64.ofNat significand) shift).map fun value =>
    (.float negative value, text)

def readFraction (negative : Bool) (significand : Nat) (shift : Int) (text : List Char) :
    Except Error (Number × List Char) :=
  let digits := text.takeWhile isDigit
  let rest := text.dropWhile isDigit
  match digits, rest with
  | [], [] => .error .endOfValue
  | [], _ :: _ => .error .invalidNumber
  | _, _ =>
    let (significand, left) := takeSignificand significand digits
    readFloatEnd negative significand (shift - (digits.length - left.length : Nat)) rest

/-- A whole number without fraction and exponent. Minus zero is a float, and so is what leaves the
range of 64 bits below. -/
def ofWhole (negative : Bool) (significand : Nat) : Number :=
  if !negative then .natural significand
  else if 0 < significand && significand ≤ signedBound then .negative significand
  else .float true (Binary64.ofNat significand)

def readDigits (negative : Bool) (text : List Char) : Except Error (Number × List Char) :=
  match text with
  | [] => .error .endOfValue
  | c :: rest =>
    if !isDigit c then .error .invalidNumber
    else if c = '0' && (rest.head?.any isDigit) then .error .invalidNumber
    else
      let (significand, left) := takeSignificand 0 (text.takeWhile isDigit)
      let rest := text.dropWhile isDigit
      match rest with
      | '.' :: rest => readFraction negative significand left.length rest
      | _ =>
        if left.isEmpty && !(rest.head?.any fun c => c == 'e' || c == 'E') then
          .ok (ofWhole negative significand, rest)
        else readFloatEnd negative significand left.length rest

def readNumber (text : List Char) : Except Error (Number × List Char) :=
  match text with
  | '-' :: rest => readDigits true rest
  | _ => readDigits false text

def skipExponent (text : List Char) : Except Error (List Char) :=
  let text := match text with
    | '+' :: rest => rest
    | '-' :: rest => rest
    | _ => text
  if text.head?.any isDigit then .ok (text.dropWhile isDigit) else .error .invalidNumber

def skipNumber (text : List Char) : Except Error (List Char) :=
  let text := match text with
    | '-' :: rest => rest
    | _ => text
  match text with
  | [] => .error .invalidNumber
  | c :: rest =>
    if !isDigit c then .error .invalidNumber
    else if c = '0' && (rest.head?.any isDigit) then .error .invalidNumber
    else match text.dropWhile isDigit with
      | '.' :: rest =>
        if !(rest.head?.any isDigit) then .error .invalidNumber
        else match rest.dropWhile isDigit with
          | 'e' :: rest => skipExponent rest
          | 'E' :: rest => skipExponent rest
          | rest => .ok rest
      | 'e' :: rest => skipExponent rest
      | 'E' :: rest => skipExponent rest
      | rest => .ok rest

end LedgerDrill.Json
