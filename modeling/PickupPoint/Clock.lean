/-
A clock: the readings it will show, and how many of them have been taken. Nothing is assumed of the readings.
-/
import PickupPoint.Time.Instant

namespace PickupPoint

structure Clock where
  readings : Nat → Instant
  taken : Nat

namespace Clock

/-- what the next reading shows -/
def current (c : Clock) : Instant := c.readings c.taken

def advance (c : Clock) : Clock := { c with taken := c.taken + 1 }

/-- a clock that moves on by a microsecond with every reading -/
def ticking (start : Instant) : Clock where
  readings n :=
    let nano := start.nano + n * 1000
    ⟨start.second + nano / Instant.nanosPerSecond, nano % Instant.nanosPerSecond⟩
  taken := 0

end Clock
end PickupPoint
