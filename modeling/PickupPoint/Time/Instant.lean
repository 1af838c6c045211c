/-
A point in time: a second counted from 1970-01-01 00:00:00 UTC and nanoseconds into it. A leap second is counted as a
second billion of nanoseconds of the second before it, so instants are ordered by second and then by nanosecond.
-/
namespace PickupPoint

structure Instant where
  second : Int
  nano : Nat
  deriving DecidableEq, Repr

namespace Instant

def nanosPerSecond : Nat := 1000000000

protected def lt (a b : Instant) : Prop := a.second < b.second ∨ (a.second = b.second ∧ a.nano < b.nano)

instance : LT Instant := ⟨Instant.lt⟩

instance (a b : Instant) : Decidable (a < b) := inferInstanceAs (Decidable (_ ∨ _))

instance : LE Instant := ⟨fun a b => ¬ b < a⟩

instance (a b : Instant) : Decidable (a ≤ b) := inferInstanceAs (Decidable (¬ _))

/-- the instant some seconds later; what leaves a leap second loses the extra billion -/
def plusSeconds (t : Instant) (seconds : Nat) : Instant := ⟨t.second + seconds, t.nano % nanosPerSecond⟩

/-- 2000-01-01 00:00:00 UTC -/
def millennium : Int := 946684800

/-- The instant in whole microseconds, where storage counts them from the millennium and drops the rest toward it. A leap
second becomes the second after it. -/
def toMicroseconds (t : Instant) : Int :=
  ((t.second - millennium) * nanosPerSecond + t.nano).tdiv 1000

def ofMicroseconds (micros : Int) : Instant :=
  ⟨millennium + micros / 1000000, (micros % 1000000).toNat * 1000⟩

/-- as storage keeps it -/
def atMicrosecond (t : Instant) : Instant := ofMicroseconds t.toMicroseconds

end Instant

/-- a span of time: whole seconds, and nanoseconds into one more -/
structure Duration where
  second : Nat
  nano : Fin Instant.nanosPerSecond
  deriving DecidableEq, Repr

def Duration.ofSeconds (seconds : Nat) : Duration := ⟨seconds, ⟨0, by decide⟩⟩

/-- the instant a span later; a billion of nanoseconds is carried as a second -/
def Instant.plus (t : Instant) (d : Duration) : Instant :=
  if t.nano % nanosPerSecond + d.nano < nanosPerSecond then ⟨t.second + d.second, t.nano + d.nano⟩
  else ⟨t.second + d.second + 1, t.nano + d.nano - nanosPerSecond⟩

end PickupPoint
