/-
Faults on purpose. A `Fault` waits at one point of the service, counts the arrivals there, and has an effect on some of
them: it refuses the call, panics, or skips it. A call is reached before it acts and, once it has succeeded, after.

`arrive` tells every fault at the point of an arrival. If several act on it, the first one counts.
-/
import PickupPoint.Error

namespace PickupPoint

/-- where a call can be reached -/
inductive Point where
  | getOrder
  | listOrders
  | getHistory
  | getOrderHistory
  | begin
  | commit
  | txGetOrder
  | txSaveOrder
  | txUpdateOrder
  | txDeleteOrder
  | txAppendHistory
  | txSaveEvent
  | txSavepoint
  | cacheGet
  | cacheSet
  | cacheDelete
  deriving DecidableEq, Repr

inductive Effect where
  | error (cause : Error)
  | panic (text : String)
  | skip
  deriving DecidableEq, Repr

structure Fault where
  point : Point
  /-- whether it waits for calls that have succeeded -/
  after : Bool
  /-- number of the first arrival that it acts on, counted from 1 -/
  first : Nat
  /-- how many arrivals it acts on; all later ones without it -/
  count : Option Nat
  effect : Effect
  /-- arrivals so far -/
  seen : Nat
  deriving DecidableEq, Repr

namespace Fault

def isAt (f : Fault) (p : Point) (after : Bool) : Bool := f.point = p ∧ f.after = after

/-- whether it acts on the arrival with a number -/
def covers (f : Fault) (n : Nat) : Bool :=
  f.first ≤ n && f.count.all (n < f.first + ·)

/-- the effect on an arrival at its point -/
def effect? (f : Fault) (p : Point) (after : Bool) : Option Effect :=
  if f.isAt p after ∧ f.covers (f.seen + 1) then some f.effect else none

/-- the fault after an arrival -/
def notice (f : Fault) (p : Point) (after : Bool) : Fault :=
  if f.isAt p after then { f with seen := f.seen + 1 } else f

/-- the effect of an arrival, and the faults after it -/
def arrive (p : Point) (after : Bool) (fs : List Fault) : Option Effect × List Fault :=
  (fs.findSome? (·.effect? p after), fs.map (·.notice p after))

end Fault
end PickupPoint
