namespace LedgerDrill

def roundDiv (num den : Nat) : Nat :=
  let quotient := num / den
  let rest := num % den
  if den < 2 * rest || (2 * rest == den && quotient % 2 == 1) then quotient + 1 else quotient

structure Binary64 where
  mantissa : Nat
  exponent : Int
deriving DecidableEq, Repr

namespace Binary64

def leastExponent : Int := -1074

def floorLog2 (num den : Nat) : Int :=
  let guess : Int := (Nat.log2 num : Int) - Nat.log2 den
  let reached :=
    if 0 ≤ guess then den * Nat.pow 2 guess.toNat ≤ num
    else den ≤ num * Nat.pow 2 (-guess).toNat
  if reached then guess else guess - 1

/-- A mantissa that was rounded up to 54 bits is a power of two, and is written with 53. -/
def normalized (mantissa : Nat) (exponent : Int) : Binary64 :=
  if mantissa = Nat.pow 2 53 then ⟨Nat.pow 2 52, exponent + 1⟩ else ⟨mantissa, exponent⟩

def ofRatio (num den : Nat) : Binary64 :=
  if num = 0 then ⟨0, leastExponent⟩
  else
    let exponent := max (floorLog2 num den - 52) leastExponent
    if 0 ≤ exponent then normalized (roundDiv num (den * Nat.pow 2 exponent.toNat)) exponent
    else normalized (roundDiv (num * Nat.pow 2 (-exponent).toNat) den) exponent

def toRatio (x : Binary64) : Nat × Nat :=
  if 0 ≤ x.exponent then (x.mantissa * Nat.pow 2 x.exponent.toNat, 1)
  else (x.mantissa, Nat.pow 2 (-x.exponent).toNat)

def ofNat (n : Nat) : Binary64 := ofRatio n 1

def add (x y : Binary64) : Binary64 :=
  let (a, b) := x.toRatio
  let (c, d) := y.toRatio
  ofRatio (a * d + c * b) (b * d)

def mul (x y : Binary64) : Binary64 :=
  let (a, b) := x.toRatio
  let (c, d) := y.toRatio
  ofRatio (a * c) (b * d)

def div (x y : Binary64) : Binary64 :=
  let (a, b) := x.toRatio
  let (c, d) := y.toRatio
  ofRatio (a * d) (b * c)

def isInfinite (x : Binary64) : Bool := Nat.pow 2 1024 ≤ x.mantissa * Nat.pow 2 x.exponent.toNat

def isZero (x : Binary64) : Bool := x.mantissa == 0

def twoPlaces (x : Binary64) : List Char :=
  let (num, den) := x.toRatio
  let hundredths := roundDiv (num * 100) den
  let rest := hundredths % 100
  Nat.toDigits 10 (hundredths / 100) ++ ['.', (rest / 10).digitChar, (rest % 10).digitChar]

/-- The reals that round to `x`: both ends in quarters of the last place, and whether they belong
to the interval. Below a power of two the places are half as wide. -/
structure Neighbourhood where
  low : Nat × Nat
  high : Nat × Nat
  closed : Bool

def neighbourhood (x : Binary64) : Neighbourhood :=
  let below := if x.mantissa == Nat.pow 2 52 && leastExponent < x.exponent then 1 else 2
  let quarters (m : Nat) : Nat × Nat := toRatio ⟨m, x.exponent - 2⟩
  { low := quarters (4 * x.mantissa - below), high := quarters (4 * x.mantissa + 2),
    closed := x.mantissa % 2 == 0 }

def Neighbourhood.contains (n : Neighbourhood) (num den : Nat) : Bool :=
  if n.closed then n.low.1 * den ≤ num * n.low.2 && num * n.high.2 ≤ n.high.1 * den
  else n.low.1 * den < num * n.low.2 && num * n.high.2 < n.high.1 * den

structure Decimal where
  digits : List Char
  exponent : Int

def tenPow (e : Int) : Nat × Nat :=
  if 0 ≤ e then (Nat.pow 10 e.toNat, 1) else (1, Nat.pow 10 (-e).toNat)

def floorLog10 (num den : Nat) : Int :=
  let fits (e : Int) : Bool :=
    let (a, b) := tenPow e
    a * den ≤ num * b
  ((List.range 640).map fun (i : Nat) => (310 : Int) - i).find? fits |>.getD 0

def onGrid? (x : Binary64) (place : Int) : Option Nat :=
  let (num, den) := x.toRatio
  let (a, b) := tenPow place
  let floor := (num * b) / (den * a)
  let inside (c : Nat) : Bool := x.neighbourhood.contains (c * a) b
  let nearest := roundDiv (num * b) (den * a)
  if inside nearest then some nearest
  else if inside floor then some floor
  else if inside (floor + 1) then some (floor + 1)
  else none

/-- The fewest digits that read back as the positive number `x`, and of those the nearest. -/
def shortest (x : Binary64) : Decimal :=
  let (num, den) := x.toRatio
  let top := floorLog10 num den
  match (List.range 17).findSome? fun (n : Nat) => (x.onGrid? (top - n)).map fun c => (c, top - n) with
  | none => { digits := ['0'], exponent := 0 }
  | some (c, place) =>
    let digits := Nat.toDigits 10 c
    { digits := (digits.reverse.dropWhile (· == '0')).reverse,
      exponent := place + digits.length - 1 }

def Decimal.text (d : Decimal) : List Char :=
  if -5 ≤ d.exponent && d.exponent ≤ 15 then
    if d.exponent < 0 then
      ['0', '.'] ++ List.replicate (-d.exponent - 1).toNat '0' ++ d.digits
    else
      let whole := d.exponent.toNat + 1
      let fraction := d.digits.drop whole
      (d.digits.take whole).rightpad whole '0' ++ ['.'] ++ (if fraction.isEmpty then ['0'] else fraction)
  else
    let rest := d.digits.drop 1
    d.digits.take 1 ++ (if rest.isEmpty then [] else '.' :: rest) ++
      ['e', if d.exponent < 0 then '-' else '+'] ++ Nat.toDigits 10 d.exponent.natAbs

def text (x : Binary64) : List Char := if x.isZero then ['0', '.', '0'] else x.shortest.text

end Binary64

end LedgerDrill
