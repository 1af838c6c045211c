/-
Orders and what happens to them. An order is one parcel of one user; its history has an entry for every status it took.

A weight is checked against the limit of its package and a price against what storage keeps exactly: at most ten digits
before the point and two after it, and no sign.
-/
import PickupPoint.Order.Status
import PickupPoint.Order.Package
import PickupPoint.Decimal.Text
import PickupPoint.Time.Instant

namespace PickupPoint

structure Order where
  id : Nat
  userId : Nat
  status : Status
  /-- pickup deadline while stored, return deadline once issued -/
  expiresAt : Instant
  package : Package
  weight : Float
  /-- base price and surcharge -/
  price : Decimal
  deriving DecidableEq, Repr

/-- a status that an order took -/
structure HistoryEntry where
  id : Int
  orderId : Nat
  status : Status
  createdAt : Instant
  deriving DecidableEq, Repr

/-- what a client asks to do with an order -/
inductive Action where
  | unspecified
  | issue
  | takeBack
  deriving DecidableEq, Repr

namespace Action

/-- Every other text is an unspecified action, which each order then refuses. -/
def parse : String → Action
  | "issue" => .issue
  | "return" => .takeBack
  | _ => .unspecified

def text : Action → String
  | .unspecified => "unspecified"
  | .issue => "issue"
  | .takeBack => "return"

end Action

namespace Order

/-- hours in which a client may bring an issued order back -/
def returnWindowHours : Nat := 48

/-- the return deadline of an order issued now -/
def returnDeadline (now : Instant) : Instant := now.plusSeconds (returnWindowHours * 3600)

/-- digits that a stored price has after its point -/
def priceScale : Nat := 2

/-- digits that it has before its point -/
def priceDigits : Nat := 10

/-- A weight that does not compare, such as one that is no number, is below every limit. -/
def checkWeight (o : Order) : Except Error Unit :=
  match o.package.weightLimit? with
  | some limit => if limit ≤ o.weight then .error .weightTooHeavy else .ok ()
  | none => .ok ()

def addSurcharge (o : Order) : Order := { o with price := o.price.add (.ofNat o.package.surcharge) }

def checkPrice (o : Order) : Except Error Unit :=
  let text := o.price.toText
  if o.price.lt .zero then .error (.invalidInput ("price " ++ text ++ " is negative"))
  else if ¬ (o.price.truncate priceScale).sameValue o.price then
    .error (.invalidInput ("price " ++ text ++ " has more than " ++ toString priceScale ++ " fractional digits"))
  else if ¬ o.price.lt (.ofNat (Nat.pow 10 priceDigits)) then .error (.invalidInput ("price " ++ text ++ " is too large"))
  else .ok ()

end Order

/-- What a courier hands over. The package is a name that has yet to be checked. -/
structure Acceptance where
  orderId : Nat
  userId : Nat
  weight : Float
  price : Decimal
  expiresAt : Instant
  package : String
  deriving DecidableEq, Repr

end PickupPoint
