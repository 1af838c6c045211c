/-
The store as the service uses it: reads, and writes inside transactions and savepoints. Every call can be reached by a
fault.

A transaction that ends with an answer is committed; one that ends with a halt is rolled back and halts likewise. A
savepoint inside it that ends with a refusal is rolled back on its own, and the transaction goes on.
-/
import PickupPoint.Service.Act

namespace PickupPoint

open Act

variable {σ κ α γ : Type} [OrderStore σ]

/-! ## Reads -/

def storedOrder (id : Nat) : Act σ κ Order := reachedAt .getOrder (onStore fun _ => OrderStore.order id)

def storedOrders : Act σ κ (List Order) := reachedAt .listOrders (onStore fun _ => OrderStore.orders)

def storedHistory (page count : Nat) : Act σ κ (List HistoryEntry) :=
  reachedAt .getHistory (onStore fun _ => OrderStore.history page count)

def storedOrderHistory (id : Nat) : Act σ κ (List HistoryEntry) :=
  reachedAt .getOrderHistory (onStore fun _ => OrderStore.orderHistory id)

/-! ## Scopes -/

/-- an operation on the store alone, which knows the time -/
def atStore (op : Instant → Access σ Unit) (s : Site σ κ) : Except Error Unit × Site σ κ :=
  let (r, store) := op s.clock.current s.store
  (r, { s with store := store })

/-- Opens a transaction, works in it, and ends it as the work ended. The first part of the result is what the work came
to, unless the transaction did not open. -/
def inTransaction (work : Site σ κ → γ × Site σ κ) (ended : γ → Except Halt α) (s : Site σ κ) :
    (Option γ × Except Halt α) × Site σ κ :=
  let start := s.store
  match atStore OrderStore.begin s with
  | (.error e, s) => ((none, .error (.error e)), s)
  | (.ok (), s) =>
    let (g, s) := work s
    match ended g with
    | .ok a =>
      match atStore (fun _ => OrderStore.commit start) s with
      | (.ok (), s) => ((some g, .ok a), s)
      | (.error e, s) => ((some g, .error (.error e)), s)
    | .error halt => ((some g, .error halt), { s with store := OrderStore.rollback start s.store })

/-- The same for a savepoint. A panic leaves it to the transaction to undo the writes. -/
def inSavepoint (work : Site σ κ → γ × Site σ κ) (ended : γ → Except Halt α) (s : Site σ κ) :
    (Option γ × Except Halt α) × Site σ κ :=
  let start := s.store
  match atStore (fun _ => OrderStore.savepoint) s with
  | (.error e, s) => ((none, .error (.error e)), s)
  | (.ok (), s) =>
    let (g, s) := work s
    match ended g with
    | .ok a =>
      match atStore (fun _ => OrderStore.release start) s with
      | (.ok (), s) => ((some g, .ok a), s)
      | (.error e, s) => ((some g, .error (.error e)), s)
    | .error (.error e) => ((some g, .error (.error e)), { s with store := OrderStore.rollbackTo start s.store })
    | .error (.panic text) => ((some g, .error (.panic text)), s)

/-- an act as a transaction; a fault at its commit is the last thing to happen inside -/
def transaction (act : Act σ κ α) : Act σ κ α := do
  let _ ← arrive .begin false
  let work : Act σ κ α := do
    let a ← act
    let _ ← arrive .commit false
    return a
  fun s =>
    let ((_, a), s) := inTransaction work id s
    (a, s)

/-- An act inside a savepoint of the transaction. Answers nothing if the savepoint was skipped. -/
def savepoint (act : Act σ κ α) : Act σ κ (Option α) := do
  if ← arrive .txSavepoint false then return none
  let work : Act σ κ α := do
    let a ← act
    let _ ← arrive .txSavepoint true
    return a
  fun s =>
    let ((_, a), s) := inSavepoint work id s
    (a.map some, s)

/-! ## Calls inside a transaction -/

def findOrder (id : Nat) : Act σ κ Order := reachedAt .txGetOrder (onStore fun _ => OrderStore.find id)

def insertOrder (o : Order) : Act σ κ Unit := reachedAt .txSaveOrder (onStore (OrderStore.insert o))

def updateOrder (o : Order) : Act σ κ Unit := reachedAt .txUpdateOrder (onStore (OrderStore.update o))

def deleteOrder (id : Nat) : Act σ κ Unit := reachedAt .txDeleteOrder (onStore fun _ => OrderStore.delete id)

def appendHistory (id : Nat) (status : Status) : Act σ κ Unit :=
  reachedAt .txAppendHistory (onStore (OrderStore.appendHistory id status))

/-- tells of an order that takes a status -/
def appendEvent (t : EventType) (actor : Actor) (o : Order) (status : Status) : Act σ κ Unit := do
  let id ← newEventId
  let time ← readClock
  let event := Event.about id time t actor o status
  reachedAt .txSaveEvent (onStore fun _ => OrderStore.appendEvent event)

end PickupPoint
