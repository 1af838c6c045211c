/-
The state of a pickup point, and the acts that its service is made of.

A `Site` is the clock, a store, a cache, the counters and the faults that are set. An `Act` works on a site and ends
with an answer or a halt; the site it leaves is kept in both cases. `attempt` turns a refusal into an answer and lets a
panic pass.
-/
import PickupPoint.Clock
import PickupPoint.Fault
import PickupPoint.Metrics
import PickupPoint.Store.Basic
import PickupPoint.Cache.Basic

namespace PickupPoint

structure Site (σ κ : Type) where
  clock : Clock
  /-- identifiers given to events so far -/
  eventIds : Nat
  store : σ
  cache : κ
  /-- seconds that the service keeps a history in the cache -/
  cacheTtl : Nat
  metrics : Metrics
  faults : List Fault

abbrev Act (σ κ α : Type) := ExceptT Halt (StateM (Site σ κ)) α

namespace Act

variable {σ κ α : Type}

def refuse (e : Error) : Act σ κ α := throw (.error e)

def panic (text : String) : Act σ κ α := throw (.panic text)

/-- the answer of a check -/
def ofExcept : Except Error α → Act σ κ α
  | .ok a => pure a
  | .error e => refuse e

/-- how an act ends, unless it panics -/
def attempt (act : Act σ κ α) : Act σ κ (Except Error α) := fun s =>
  match act s with
  | (.ok a, s) => (.ok (.ok a), s)
  | (.error (.error e), s) => (.ok (.error e), s)
  | (.error (.panic text), s) => (.error (.panic text), s)

/-- a reading of the clock -/
def readClock : Act σ κ Instant := do
  let s ← get
  set { s with clock := s.clock.advance }
  return s.clock.current

/-- an identifier that no event has yet -/
def newEventId : Act σ κ Uuid := do
  let s ← get
  set { s with eventIds := s.eventIds + 1 }
  return Uuid.ofRandom s.eventIds

/-- counts a refusal and refuses -/
def fail (e : Error) : Act σ κ α := do
  modify fun s => { s with metrics := s.metrics.countFailure e.code }
  refuse e

/-- counts a refusal without refusing -/
def noteFailure (e : Error) : Act σ κ Unit :=
  modify fun s => { s with metrics := s.metrics.countFailure e.code }

def noteEvent (t : EventType) : Act σ κ Unit :=
  modify fun s => { s with metrics := s.metrics.countEvent t }

/-- the act with its refusal counted -/
def counted (act : Act σ κ α) : Act σ κ α := do
  match ← attempt act with
  | .ok a => return a
  | .error e => fail e

/-- An arrival at a point. Answers whether the call is to be skipped. -/
def arrive (p : Point) (after : Bool) : Act σ κ Bool := do
  let s ← get
  let (effect, faults) := Fault.arrive p after s.faults
  set { s with faults := faults }
  match effect with
  | none => return false
  | some .skip => return true
  | some (.error e) => refuse e
  | some (.panic text) => panic text

/-- a call that is reached at a point before it acts and after it has succeeded -/
def reachedAt (p : Point) (act : Act σ κ α) : Act σ κ α := do
  let _ ← arrive p false
  let a ← act
  let _ ← arrive p true
  return a

/-- an operation on the store, which is told the time -/
def onStore (op : Instant → Access σ α) : Act σ κ α := do
  let s ← get
  let (a, store) := op s.clock.current s.store
  set { s with store := store }
  ofExcept a

/-- an operation on the cache, which is told the time -/
def onCache (op : Instant → CacheAccess κ α) : Act σ κ (Option α) := do
  let s ← get
  let (a, cache) := op s.clock.current s.cache
  set { s with cache := cache }
  match a with
  | .ok a => return some a
  | .error .unavailable => return none
  | .error (.panic text) => panic text

end Act
end PickupPoint
