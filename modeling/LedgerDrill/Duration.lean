import LedgerDrill.Binary64
import LedgerDrill.Text.Basic

namespace LedgerDrill

def nanosPerSecond : Nat := 1000000000

def nanosPerMilli : Nat := 1000000

structure Duration where
  nanos : Nat
  nanos_lt : nanos < wordBound * nanosPerSecond
deriving DecidableEq, Repr

namespace Duration

def greatest : Nat := wordBound * nanosPerSecond - 1

def ofNanos (n : Nat) : Duration :=
  ⟨min n greatest, by simp only [greatest, wordBound, nanosPerSecond]; omega⟩

def ofMillis (n : Nat) : Duration := ofNanos (n * nanosPerMilli)

def ofSeconds (n : Nat) : Duration := ofNanos (n * nanosPerSecond)

def zero : Duration := ofNanos 0

instance : Inhabited Duration := ⟨zero⟩

def ofParts? (seconds nanos : Nat) : Option Duration :=
  let total := seconds * nanosPerSecond + nanos
  if h : total < wordBound * nanosPerSecond then some ⟨total, h⟩ else none

def seconds (d : Duration) : Nat := d.nanos / nanosPerSecond

def fraction (d : Duration) : Nat := d.nanos % nanosPerSecond

def longer (a b : Duration) : Duration := if a.nanos < b.nanos then b else a

def isZero (d : Duration) : Bool := d.nanos == 0

/-- The duration in seconds as a binary fraction: the whole seconds and the rest are rounded by
themselves, and so is their sum. -/
def toBinary64 (d : Duration) : Binary64 :=
  (Binary64.ofNat d.seconds).add (Binary64.ofRatio d.fraction nanosPerSecond)

def twoPlaces (d : Duration) : String := String.ofList d.toBinary64.twoPlaces

theorem ext_nanos {a b : Duration} (h : a.nanos = b.nanos) : a = b := by
  cases a; cases b; simp_all

theorem nanos_ofNanos {n : Nat} (h : n < wordBound * nanosPerSecond) : (ofNanos n).nanos = n := by
  simp only [ofNanos, greatest]
  omega

end Duration

end LedgerDrill
