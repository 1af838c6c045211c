/-
A client collects parcels or brings them back, several at a time.

All ids of a batch share one transaction and one reading of the clock. Each has a savepoint of its own, so that an id
that is refused undoes nothing of the others. The batch as a whole never fails: if the transaction does, every id of it
is an error.
-/
import PickupPoint.Service.History

namespace PickupPoint

open Act

variable {σ κ : Type} [OrderStore σ] [HistoryCache κ]

/-- ids in the order of the batch -/
structure BatchResult where
  processed : List Nat
  errors : List Nat
  deriving DecidableEq, Repr

/-- an overdue order may neither be collected nor brought back -/
def overdue : Action → Error
  | .takeBack => .returnTimeExpired
  | .issue | .unspecified => .storageExpired

/-- the order after an action, and the event of it -/
def Order.after (o : Order) (action : Action) (now : Instant) : Except Error (Order × EventType) :=
  match action with
  | .issue =>
    match o.status with
    | .expects => .ok ({ o with status := .accepted, expiresAt := Order.returnDeadline now }, .orderIssued)
    | .accepted => .error .orderAlreadyIssued
    | .returned | .deleted => .error (.validationFailed ("cannot issue order in status " ++ o.status.text))
  | .takeBack =>
    if o.status = .accepted then .ok ({ o with status := .returned }, .orderReturnedByClient)
    else .error (.validationFailed ("cannot take back order in status " ++ o.status.text))
  | .unspecified => .error (.invalidAction action.text)

/-- One id of a batch. An order of another user is as good as none. -/
def applyAction (userId : Nat) (action : Action) (now : Instant) (id : Nat) : Act σ κ EventType := do
  let order ← findOrder id
  if order.userId ≠ userId then refuse .orderNotFound
  if order.expiresAt < now then refuse (overdue action)
  let (order, eventType) ← ofExcept (order.after action now)
  updateOrder order
  appendHistory order.id order.status
  appendEvent eventType (.client userId) order order.status
  return eventType

/-- An id with the event of what was done, if it was. A skipped savepoint is an error that counts as none. -/
def applyInBatch (userId : Nat) (action : Action) (now : Instant) (id : Nat) : Act σ κ (Nat × Option EventType) := do
  match ← attempt (savepoint (applyAction userId action now id)) with
  | .ok outcome => return (id, outcome)
  | .error e =>
    noteFailure e
    return (id, none)

/-- ids with their events, once the transaction is through -/
def noteBatch (outcomes : List (Nat × Option EventType)) : Act σ κ Unit :=
  (outcomes.filterMap (·.2)).forM noteEvent

/-- ids of which something was done -/
def doneIds (outcomes : List (Nat × Option EventType)) : List Nat := (outcomes.filter (·.2.isSome)).map (·.1)

/-- ids of which nothing was done -/
def failedIds (outcomes : List (Nat × Option EventType)) : List Nat := (outcomes.filter (·.2.isNone)).map (·.1)

def process (userId : Nat) (action : Action) (ids : List Nat) : Act σ κ BatchResult := do
  let now ← readClock
  match ← attempt (transaction (ids.mapM (applyInBatch userId action now))) with
  | .ok outcomes =>
    noteBatch outcomes
    (doneIds outcomes).forM dropHistory
    return ⟨doneIds outcomes, failedIds outcomes⟩
  | .error e =>
    noteFailure e
    return ⟨[], ids⟩

end PickupPoint
