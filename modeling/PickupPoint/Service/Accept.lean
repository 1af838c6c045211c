/-
A courier hands over parcels, and takes them back.

A parcel is accepted if its deadline lies ahead, its package is known, its id is free, and its weight and its price with
the surcharge are allowed, tested in that order; `checkAcceptance` tells and `storeAccepted` writes. The order, the first
entry of its history and the event are written in one transaction, where an id that was taken in the meantime is found.

A courier may take back an order that its client returned, and one whose deadline has passed.
-/
import PickupPoint.Service.History

namespace PickupPoint

open Act

variable {σ κ : Type} [OrderStore σ] [HistoryCache κ]

def deadlinePassed : Error := .validationFailed "expiration date is in the past"

/-- the order to store, if the parcel may be accepted -/
def checkAcceptance (a : Acceptance) : Act σ κ Order := do
  let now ← readClock
  if a.expiresAt ≤ now then fail deadlinePassed
  let package ← counted (ofExcept (Package.parse a.package))
  match ← attempt (storedOrder a.orderId) with
  | .ok _ => fail .orderAlreadyExists
  | .error .orderNotFound => pure ()
  | .error e => fail e
  let order : Order := ⟨a.orderId, a.userId, .expects, a.expiresAt, package, a.weight, a.price⟩
  counted (ofExcept order.checkWeight)
  let order := order.addSurcharge
  counted (ofExcept order.checkPrice)
  return order

/-- stores an order whose id has to be free -/
def insertNew (o : Order) : Act σ κ Unit := do
  match ← attempt (insertOrder o) with
  | .ok () => return
  | .error .duplicateOrder => refuse .orderAlreadyExists
  | .error e => refuse e

/-- writes an accepted order -/
def storeAccepted (o : Order) : Act σ κ Unit := do
  counted (transaction do
    insertNew o
    appendHistory o.id o.status
    appendEvent .orderAccepted (.courier o.userId) o o.status)
  noteEvent .orderAccepted

def accept (a : Acceptance) : Act σ κ Order := do
  let order ← checkAcceptance a
  storeAccepted order
  dropHistory order.id
  return order

/-- whether a courier may take an order back -/
def checkReclaim (o : Order) : Act σ κ Unit := do
  match o.status with
  | .accepted => refuse .orderAlreadyIssued
  | .returned => return
  | _ =>
    let now ← readClock
    if now < o.expiresAt then refuse .storageNotExpired

/-- writes that an order is gone -/
def storeReclaimed (id : Nat) : Act σ κ Unit := do
  counted (transaction do
    let order ← findOrder id
    checkReclaim order
    appendHistory id .deleted
    deleteOrder id
    appendEvent .orderReturnedToCourier (.courier order.userId) order .deleted)
  noteEvent .orderReturnedToCourier

/-- hands an order back to the courier; the answer is the status it has from then on -/
def reclaim (id : Nat) : Act σ κ Status := do
  storeReclaimed id
  dropHistory id
  return .deleted

/-! ## Imports -/

/-- a record that never became a parcel to accept; its id is 0 if it could not be read -/
structure RejectedRecord where
  orderId : Nat
  cause : Error
  deriving DecidableEq, Repr

/-- how many records were imported, and the ids of the others in their order -/
structure ImportResult where
  /-- exact: a body that is read has fewer records than 32 bits count -/
  imported : Nat
  errors : List Nat
  deriving DecidableEq, Repr

namespace ImportResult

def none : ImportResult := ⟨0, []⟩

def addImported (r : ImportResult) : ImportResult := { r with imported := r.imported + 1 }

def addError (r : ImportResult) (id : Nat) : ImportResult := { r with errors := r.errors ++ [id] }

end ImportResult

/-- one record after those with a result -/
def importRecord (r : ImportResult) (record : Except RejectedRecord Acceptance) : Act σ κ ImportResult := do
  match record with
  | .ok a =>
    match ← attempt (accept a) with
    | .ok _ => return r.addImported
    | .error _ => return r.addError a.orderId
  | .error rejected =>
    noteFailure rejected.cause
    return r.addError rejected.orderId

/-- accepts every record by itself -/
def importAll (records : List (Except RejectedRecord Acceptance)) : Act σ κ ImportResult :=
  records.foldlM importRecord .none

end PickupPoint
