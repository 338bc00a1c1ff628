import LedgerDrill.Duration

namespace LedgerDrill

structure Latency where
  min : Nat
  max : Nat
deriving DecidableEq, Repr

namespace Latency

def fixed (millis : Nat) : Latency := ⟨millis, millis⟩

/-- The milliseconds that a random number draws. Bounds in the wrong order mean the first one. -/
def draw (l : Latency) (random : Nat) : Nat :=
  if l.max ≤ l.min then l.min else l.min + random % (l.max - l.min + 1)

def sample (l : Latency) (random : Nat) : Nat := l.draw random * nanosPerMilli

theorem min_le_draw (l : Latency) (random : Nat) : l.min ≤ l.draw random := by
  unfold draw
  split
  · exact Nat.le_refl _
  · exact Nat.le_add_right ..

theorem draw_le_max {l : Latency} (h : l.min ≤ l.max) (random : Nat) : l.draw random ≤ l.max := by
  unfold draw
  split
  · exact h
  · have := Nat.mod_lt random (show 0 < l.max - l.min + 1 by omega)
    omega

end Latency

end LedgerDrill
