/-
Events that tell the outside of a change to an order. Each is written in the transaction of the change it describes and
carries who acted, on which order, and the status the order has from then on.
-/
import PickupPoint.Order.Basic
import PickupPoint.Uuid

namespace PickupPoint

inductive EventType where
  | orderAccepted
  | orderIssued
  | orderReturnedByClient
  | orderReturnedToCourier
  deriving DecidableEq, Repr

namespace EventType

def text : EventType → String
  | .orderAccepted => "order_accepted"
  | .orderIssued => "order_issued"
  | .orderReturnedByClient => "order_returned_by_client"
  | .orderReturnedToCourier => "order_returned_to_courier"

/-- every type, in the order of its text -/
def all : List EventType := [.orderAccepted, .orderIssued, .orderReturnedByClient, .orderReturnedToCourier]

theorem mem_all (t : EventType) : t ∈ all := by cases t <;> decide

def ofText? : String → Option EventType
  | "order_accepted" => some .orderAccepted
  | "order_issued" => some .orderIssued
  | "order_returned_by_client" => some .orderReturnedByClient
  | "order_returned_to_courier" => some .orderReturnedToCourier
  | _ => none

theorem ofText?_text (t : EventType) : ofText? t.text = some t := by cases t <;> rfl

end EventType

structure Actor where
  kind : String
  id : Nat
  deriving DecidableEq, Repr

def Actor.courier (id : Nat) : Actor := ⟨"courier", id⟩

def Actor.client (id : Nat) : Actor := ⟨"client", id⟩

/-- the order as an event shows it -/
structure EventOrder where
  id : Nat
  userId : Nat
  status : Status
  deriving DecidableEq, Repr

structure Event where
  eventId : Uuid
  eventType : EventType
  timestamp : Instant
  actor : Actor
  order : EventOrder
  source : String
  deriving DecidableEq, Repr

/-- source of every event of this service -/
def Event.ownSource : String := "pvz-api"

/-- the event of an order that takes a status -/
def Event.about (eventId : Uuid) (timestamp : Instant) (eventType : EventType) (actor : Actor) (o : Order)
    (status : Status) : Event :=
  ⟨eventId, eventType, timestamp, actor, ⟨o.id, o.userId, status⟩, ownSource⟩

end PickupPoint
