/-
The JSON documents of orders, history entries and events, as caches and outboxes keep them. Each record is an object of
its fields in their order; instants are written in UTC with a `Z`, and prices as text.
-/
import PickupPoint.Event
import PickupPoint.Json.Decode

namespace PickupPoint

open Json

/-! ## Writing -/

def Order.toJson (o : Order) : Json := .object [
  ("id", .integer o.id),
  ("user_id", .integer o.userId),
  ("status", .text o.status.text),
  ("expires_at", .text o.expiresAt.zuluText),
  ("package_type", .text o.package.text),
  ("weight", .float o.weight),
  ("price", .text o.price.toText)]

def HistoryEntry.toJson (h : HistoryEntry) : Json := .object [
  ("id", .integer h.id),
  ("order_id", .integer h.orderId),
  ("status", .text h.status.text),
  ("created_at", .text h.createdAt.zuluText)]

def Actor.toJson (a : Actor) : Json := .object [("type", .text a.kind), ("id", .integer a.id)]

def EventOrder.toJson (o : EventOrder) : Json := .object [
  ("id", .integer o.id),
  ("user_id", .integer o.userId),
  ("status", .text o.status.text)]

def Event.toJson (e : Event) : Json := .object [
  ("event_id", .text e.eventId.toText),
  ("event_type", .text e.eventType.text),
  ("timestamp", .text e.timestamp.zuluText),
  ("actor", e.actor.toJson),
  ("order", e.order.toJson),
  ("source", .text e.source)]

/-- the document of a history, which a cache keeps -/
def historyText (h : List HistoryEntry) : String := (Json.array (h.map HistoryEntry.toJson)).toText

/-! ## Reading -/

open Decoder

def decodeStatus : Decoder Status := name Status.ofText?

def decodePackage : Decoder Package := name Package.ofText?

def decodeEventType : Decoder EventType := name EventType.ofText?

def decodeOrder : Decoder Order := fun levels t => do
  let (members, levels) ←
    t.members? ["id", "user_id", "status", "expires_at", "package_type", "weight", "price"] levels
  match members with
  | [id, userId, status, expiresAt, package, weight, price] =>
    return {
      id := ← required (leaf natural?) levels id
      userId := ← required (leaf natural?) levels userId
      status := ← required decodeStatus levels status
      expiresAt := ← required (leaf instant?) levels expiresAt
      package := ← required decodePackage levels package
      weight := ← required (leaf asFloat?) levels weight
      price := ← required (leaf decimal?) levels price }
  | _ => none

def decodeHistoryEntry : Decoder HistoryEntry := fun levels t => do
  let (members, levels) ← t.members? ["id", "order_id", "status", "created_at"] levels
  match members with
  | [id, orderId, status, createdAt] =>
    return {
      id := ← required (leaf signed?) levels id
      orderId := ← required (leaf natural?) levels orderId
      status := ← required decodeStatus levels status
      createdAt := ← required (leaf instant?) levels createdAt }
  | _ => none

def decodeActor : Decoder Actor := fun levels t => do
  let (members, levels) ← t.members? ["type", "id"] levels
  match members with
  | [kind, id] => return ⟨← required (leaf asText?) levels kind, ← required (leaf natural?) levels id⟩
  | _ => none

def decodeEventOrder : Decoder EventOrder := fun levels t => do
  let (members, levels) ← t.members? ["id", "user_id", "status"] levels
  match members with
  | [id, userId, status] =>
    return {
      id := ← required (leaf natural?) levels id
      userId := ← required (leaf natural?) levels userId
      status := ← required decodeStatus levels status }
  | _ => none

def decodeEvent : Decoder Event := fun levels t => do
  let (members, levels) ←
    t.members? ["event_id", "event_type", "timestamp", "actor", "order", "source"] levels
  match members with
  | [eventId, eventType, timestamp, actor, order, source] =>
    return {
      eventId := ← required (leaf fun v => v.asText?.bind Uuid.parse?) levels eventId
      eventType := ← required decodeEventType levels eventType
      timestamp := ← required (leaf instant?) levels timestamp
      actor := ← required decodeActor levels actor
      order := ← required decodeEventOrder levels order
      source := ← required (leaf asText?) levels source }
  | _ => none

/-- the history that a document holds -/
def historyOfText? (text : String) : Option (List HistoryEntry) := (Decoder.list decodeHistoryEntry).run text

end PickupPoint
