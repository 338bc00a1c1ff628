import LedgerDrill.Duration
import LedgerDrill.Json.Reader

namespace LedgerDrill.Duration
open Text (isDigit digitValue)

inductive TimeUnit
  | nano
  | micro
  | milli
  | second
  | minute
  | hour
  | day
  | week
  | month
  | year
deriving DecidableEq, Repr

namespace TimeUnit

def ofName? (name : String) : Option TimeUnit :=
  if name ∈ ["nanos", "nsec", "ns"] then some nano
  else if name ∈ ["usec", "us", "µs"] then some micro
  else if name ∈ ["millis", "msec", "ms"] then some milli
  else if name ∈ ["seconds", "second", "secs", "sec", "s"] then some second
  else if name ∈ ["minutes", "minute", "min", "mins", "m"] then some minute
  else if name ∈ ["hours", "hour", "hrs", "hr", "h"] then some hour
  else if name ∈ ["days", "day", "d"] then some day
  else if name ∈ ["weeks", "week", "wks", "wk", "w"] then some week
  else if name ∈ ["months", "month", "M"] then some month
  else if name ∈ ["years", "year", "yrs", "yr", "y"] then some year
  else none

/-- The whole seconds of the unit, zero below a second. A month is the twelfth part of a year, and a
year has 365 days and a quarter. -/
def seconds : TimeUnit → Nat
  | nano | micro | milli => 0
  | second => 1
  | minute => 60
  | hour => 3600
  | day => 86400
  | week => 604800
  | month => 2630016
  | year => 31557600

def subNanos : TimeUnit → Nat
  | nano => 1
  | micro => 1000
  | milli => 1000000
  | _ => 0

/-- In what a decimal fraction of the unit is counted: its size in whole seconds, or else in
nanoseconds. A nanosecond has no fraction. -/
def fractionScale : TimeUnit → Option (Nat × Nat)
  | nano => none
  | micro => some (0, 1000)
  | milli => some (0, 1000000)
  | second => some (0, 1000000000)
  | minute => some (0, 60000000000)
  | unit => some (unit.seconds, 0)

end TimeUnit

def bounded? (n : Nat) : Option Nat := if n < wordBound then some n else none

def plus? (d : Duration) (seconds nanos : Nat) : Option Duration := do
  ofParts? (d.seconds + seconds) (← bounded? (d.fraction + nanos))

structure Fraction where
  numerator : Nat
  denominator : Nat
deriving DecidableEq, Repr

def Fraction.of? (f : Fraction) (scale : Nat) : Option Nat := do
  let product ← bounded? (f.numerator * scale)
  if product % f.denominator = 0 then some (product / f.denominator) else none

def addCount? (d : Duration) (count : Nat) (fraction : Option Fraction) (unit : TimeUnit) :
    Option Duration := do
  let d ← d.plus? (← bounded? (count * unit.seconds)) (← bounded? (count * unit.subNanos))
  match fraction with
  | none => some d
  | some f =>
    let (secondScale, nanoScale) ← unit.fractionScale
    d.plus? (← f.of? secondScale) (← f.of? nanoScale)

def isUnitLetter (c : Char) : Bool :=
  ('a' ≤ c && c ≤ 'z') || ('A' ≤ c && c ≤ 'Z') || c == 'µ'

inductive TextState
  | between
  | count (value : Nat)
  | fraction (count : Nat) (digits : Fraction)
  | unit (count : Nat) (fraction : Option Fraction) (letters : List Char)
deriving DecidableEq, Repr

def close? (d : Duration) (count : Nat) (fraction : Option Fraction) (letters : List Char) :
    Option Duration := do
  d.addCount? count fraction (← TimeUnit.ofName? (String.ofList letters.reverse))

/-- Reads one character. Blanks are passed over within a count, and end a unit. -/
def TextState.next? (d : Duration) (c : Char) : TextState → Option (TextState × Duration)
  | .between =>
    if isDigit c then some (.count (digitValue c), d)
    else if Text.isBlank c then some (.between, d)
    else none
  | .count value =>
    if isDigit c then (bounded? (10 * value + digitValue c)).map fun value => (.count value, d)
    else if Text.isBlank c then some (.count value, d)
    else if isUnitLetter c then some (.unit value none [c], d)
    else if c = '.' then some (.fraction value ⟨0, 1⟩, d)
    else none
  | .fraction whole f =>
    if isDigit c then do
      let numerator ← bounded? (10 * f.numerator + digitValue c)
      let denominator ← bounded? (10 * f.denominator)
      some (.fraction whole ⟨numerator, denominator⟩, d)
    else if Text.isBlank c then some (.fraction whole f, d)
    else if isUnitLetter c && f.denominator != 1 then some (.unit whole (some f) [c], d)
    else none
  | .unit whole f letters =>
    if isUnitLetter c then some (.unit whole f (c :: letters), d)
    else if isDigit c then (d.close? whole f letters).map fun d => (.count (digitValue c), d)
    else if Text.isBlank c then (d.close? whole f letters).map fun d => (.between, d)
    else none

def TextState.end? (d : Duration) : TextState → Option Duration
  | .between => some d
  | .count _ | .fraction .. => none
  | .unit whole f letters => d.close? whole f letters

def readFrom? (state : TextState) (d : Duration) : List Char → Option Duration
  | [] => state.end? d
  | c :: rest => (state.next? d c).bind fun (state, d) => readFrom? state d rest

def ofText? (text : String) : Option Duration :=
  if text = "0" then some zero
  else if text.toList.all Text.isBlank then none
  else readFrom? .between zero text.toList

def part (count : Nat) (unit : String) : List String :=
  if count = 0 then [] else [count.repr ++ unit]

def pluralPart (count : Nat) (unit : String) : List String :=
  part count (if 1 < count then unit ++ "s" else unit)

def toText (d : Duration) : String :=
  let rest := d.seconds % 31557600
  let days := rest % 2630016
  let seconds := days % 86400
  let nanos := d.fraction
  let parts := pluralPart (d.seconds / 31557600) "year" ++ pluralPart (rest / 2630016) "month" ++
    pluralPart (days / 86400) "day" ++ part (seconds / 3600) "h" ++
    part (seconds % 3600 / 60) "m" ++ part (seconds % 60) "s" ++ part (nanos / 1000000) "ms" ++
    part (nanos / 1000 % 1000) "us" ++ part (nanos % 1000) "ns"
  if parts.isEmpty then "0s" else " ".intercalate parts

def read : Json.Reader Duration :=
  Json.readStringAs "a duration" fun text =>
    match ofText? text with
    | some d => .ok d
    | none => .error (.invalidValue (.string text) "a duration")

def write (d : Duration) : List Char := Json.writeString d.toText.toList

end LedgerDrill.Duration
