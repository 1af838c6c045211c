/-
Rows of tables, as a database keeps orders and history entries, and their conversion from and to orders.

A row id is a signed number of 64 bits, so an order with a larger id has no row; and a row may hold what no order is, a
negative id or an unknown name. Of several such faults the first in the order of the fields is reported.
-/
import PickupPoint.Event
import PickupPoint.Json.Value

namespace PickupPoint

structure OrderRow where
  id : Int
  userId : Int
  status : String
  expiresAt : Instant
  weight : Float
  totalPrice : Decimal
  packageType : String
  createdAt : Instant
  updatedAt : Instant
  deriving DecidableEq, Repr

structure HistoryRow where
  id : Int
  orderId : Int
  status : String
  createdAt : Instant
  deriving DecidableEq, Repr

/-- what rows are ordered by: when they were created, and their ids where that is the same -/
structure SortKey where
  createdAt : Instant
  id : Int
  deriving DecidableEq, Repr

def SortKey.isOlder (a b : SortKey) : Bool := a.createdAt < b.createdAt || (a.createdAt = b.createdAt && a.id ≤ b.id)

def OrderRow.sortKey (r : OrderRow) : SortKey := ⟨r.createdAt, r.id⟩

def HistoryRow.sortKey (r : HistoryRow) : SortKey := ⟨r.createdAt, r.id⟩

/-- an order to insert -/
structure NewOrderRow where
  id : Int
  userId : Int
  status : String
  expiresAt : Instant
  weight : Float
  totalPrice : Decimal
  packageType : String
  deriving DecidableEq, Repr

/-- what an update writes to a row -/
structure OrderChanges where
  userId : Int
  status : String
  expiresAt : Instant
  weight : Float
  totalPrice : Decimal
  packageType : String
  updatedAt : Instant
  deriving DecidableEq, Repr

/-! ## Ids -/

/-- the largest row id -/
def maxRowId : Nat := maxOfBits 63

def toRowId (id : Nat) : Except Error Int :=
  if id ≤ maxRowId then .ok id else .error (.invalidInput ("id " ++ toString id ++ " is out of range"))

def ofRowId (id : Int) : Except Error Nat :=
  if 0 ≤ id then .ok id.toNat else .error (.internal ("negative id " ++ toString id ++ " in storage"))

/-! ## Conversion -/

def unknownPackage (name : String) : Error := .internal ("unknown package '" ++ name ++ "' in storage")

def OrderRow.toOrder (r : OrderRow) : Except Error Order := do
  let id ← ofRowId r.id
  let userId ← ofRowId r.userId
  let status ← Status.parse r.status
  let package ← (Package.parse r.packageType).mapError fun _ => unknownPackage r.packageType
  return ⟨id, userId, status, r.expiresAt, package, r.weight, r.totalPrice⟩

def HistoryRow.toEntry (r : HistoryRow) : Except Error HistoryEntry := do
  let orderId ← ofRowId r.orderId
  let status ← Status.parse r.status
  return ⟨r.id, orderId, status, r.createdAt⟩

def Order.toRow (o : Order) : Except Error NewOrderRow := do
  let id ← toRowId o.id
  let userId ← toRowId o.userId
  return ⟨id, userId, o.status.text, o.expiresAt, o.weight, o.price, o.package.text⟩

def Order.toChanges (o : Order) (now : Instant) : Except Error OrderChanges := do
  let userId ← toRowId o.userId
  return ⟨userId, o.status.text, o.expiresAt, o.weight, o.price, o.package.text, now⟩

/-! ## Columns -/

/-- a price as its column keeps it -/
def storedPrice (price : Decimal) : Decimal := price.round Order.priceScale

/-- the row that a database keeps, created at some time -/
def NewOrderRow.stored (r : NewOrderRow) (createdAt : Instant) : OrderRow :=
  ⟨r.id, r.userId, r.status, r.expiresAt.atMicrosecond, r.weight, storedPrice r.totalPrice, r.packageType, createdAt,
    createdAt⟩

/-- a row with changes written to it -/
def OrderRow.change (r : OrderRow) (c : OrderChanges) : OrderRow :=
  { r with
    userId := c.userId
    status := c.status
    expiresAt := c.expiresAt.atMicrosecond
    weight := c.weight
    totalPrice := storedPrice c.totalPrice
    packageType := c.packageType
    updatedAt := c.updatedAt.atMicrosecond }

end PickupPoint
