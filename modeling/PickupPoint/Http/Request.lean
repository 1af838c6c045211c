/-
Requests, and what their bodies and queries say.

A parcel in a body has its price as text and may leave out its package. An import takes its records as they come, so
that one that does not read as a parcel fails alone, under its id if that can be read.
-/
import PickupPoint.Http.Target
import PickupPoint.Http.MediaType
import PickupPoint.Service.Accept
import PickupPoint.Json.Decode

namespace PickupPoint.Http

open Text Json

structure Request where
  method : String
  target : Target
  contentType : Option String
  body : List UInt8

/-- bytes that a body may have -/
def bodyLimit : Nat := 2097152

/-! ## Bodies -/

/-- a parcel before its price is read -/
structure ParcelBody where
  orderId : Nat
  userId : Nat
  weight : Float
  price : String
  expiresAt : Instant
  package : String

def ParcelBody.names : List String := ["order_id", "user_id", "weight", "price", "expires_at", "package"]

def ParcelBody.ofMembers? : List (Option Json) → Option ParcelBody
  | [orderId, userId, weight, price, expiresAt, package] => do
    return {
      orderId := ← (← orderId).natural?
      userId := ← (← userId).natural?
      weight := ← (← weight).asFloat?
      price := ← (← price).asText?
      expiresAt := ← instant? (← expiresAt)
      package := ← match package with
        | some v => v.asText?
        | none => some "" }
  | _ => none

def badPrice (text : String) (fault : Decimal.Fault) : Error :=
  .invalidInput ("Invalid price '" ++ text ++ "': " ++ fault.message)

def ParcelBody.acceptance (p : ParcelBody) : Except Error Acceptance :=
  match Decimal.parse p.price with
  | .ok price => .ok ⟨p.orderId, p.userId, p.weight, price, p.expiresAt, p.package⟩
  | .error fault => .error (badPrice p.price fault)

def decodeParcel : Decoder ParcelBody := fun levels t =>
  (t.keptMembers? ParcelBody.names levels).bind ParcelBody.ofMembers?

/-- user, action and ids of a batch -/
def decodeBatch : Decoder (Nat × Action × List Nat) := fun levels t => do
  match ← t.keptMembers? ["user_id", "action", "order_ids"] levels with
  | [userId, action, ids] =>
    return (← (← userId).natural?, Action.parse (← (← action).asText?), ← naturals? (← ids))
  | _ => none

/-- the records of an import, unread -/
def decodeRecords : Decoder (List Json) := fun levels t => do
  match ← t.keptMembers? ["orders"] levels with
  | [some (.array records)] => return records
  | _ => none

/-- the id of a record, 0 if there is none to read -/
def recordId (record : Json) : Nat := ((record.get? "order_id").bind natural?).getD 0

def malformedRecord : Error := .invalidInput "malformed record"

def readRecord (record : Json) : Except RejectedRecord Acceptance :=
  match (members? ParcelBody.names record).bind ParcelBody.ofMembers? with
  | some p => p.acceptance.mapError fun e => ⟨recordId record, e⟩
  | none => .error ⟨recordId record, malformedRecord⟩

/-! ## Queries -/

/-- the only value of a name; two are refused -/
def field? (name : String) (pairs : List (String × String)) : Option (Option String) :=
  match pairs.filter (·.1 == name) with
  | [] => some none
  | [(_, value)] => some (some value)
  | _ => none

/-- a number of at most `limit`, with a number to take if it is left out -/
def number? (name : String) (limit : Nat) (fallback : Option Nat) (pairs : List (String × String)) : Option Nat := do
  match ← field? name pairs with
  | none => fallback
  | some value => (readNat limit value).toOption

def maxId : Nat := maxOfBits 64

def maxCount : Nat := maxOfBits 32

def flag? (name : String) (pairs : List (String × String)) : Option Bool := do
  match ← field? name pairs with
  | none => return false
  | some "true" => return true
  | some "false" => return false
  | some _ => none

end PickupPoint.Http
