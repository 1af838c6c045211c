/-
What a cache of histories offers: texts under keys, each for a number of seconds. A cache may fail to answer, or panic.
-/
import PickupPoint.Time.Instant

namespace PickupPoint

inductive CacheFailure where
  | unavailable
  | panic (text : String)
  deriving DecidableEq, Repr

/-- an operation on a cache -/
abbrev CacheAccess (κ α : Type) := κ → Except CacheFailure α × κ

class HistoryCache (κ : Type) where
  get (key : String) (now : Instant) : CacheAccess κ (Option String)
  /-- keeps a value for `ttl` seconds -/
  set (key value : String) (ttl : Nat) (now : Instant) : CacheAccess κ Unit
  delete (key : String) (now : Instant) : CacheAccess κ Unit

/-- a cache out of reach -/
structure UnreachableCache where
  deriving DecidableEq

instance : HistoryCache UnreachableCache where
  get _ _ c := (.error .unavailable, c)
  set _ _ _ _ c := (.error .unavailable, c)
  delete _ _ c := (.error .unavailable, c)

end PickupPoint
