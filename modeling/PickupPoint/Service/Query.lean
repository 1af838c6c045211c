/-
Questions about the stored orders: one order, the orders of a user by page or by cursor, and the returned orders of all
users.
-/
import PickupPoint.Service.Transaction
import PickupPoint.Paging

namespace PickupPoint

open Act

variable {σ κ : Type} [OrderStore σ]

def getOrder (id : Nat) : Act σ κ Order := counted (storedOrder id)

def zeroLimit : Error := .validationFailed "limit must be greater than zero"

/-- bits of a count of orders -/
def countBits : Nat := 32

/-- A page of the orders of a user, only those at the pickup point if asked and only the last ones if asked, and how
many there are before that cut. -/
def listOrders (userId : Nat) (inPickupPoint : Bool) (last page limit : Nat) : Act σ κ (List Order × Nat) := do
  if limit = 0 then fail zeroLimit
  let orders ← counted storedOrders
  let matching := orders.filter fun o => o.userId = userId && (!inPickupPoint || o.status.isInPickupPoint)
  return (pageOf (lastOf matching last) page limit, matching.length % bitLimit countBits)

/-- the returned orders, all of them for a limit of zero -/
def listReturns (page limit : Nat) : Act σ κ (List Order) := do
  let orders ← counted storedOrders
  let returned := orders.filter (·.status = .returned)
  return if limit = 0 then returned else pageOf returned page limit

/-- the orders of a user after a cursor by ascending id, and the next cursor -/
def scrollOrders (userId cursor limit : Nat) : Act σ κ (List Order × Nat) := do
  let orders ← counted storedOrders
  let own := (orders.filter (·.userId = userId)).mergeSort (·.id ≤ ·.id)
  return scrollFrom (·.id) own cursor limit

end PickupPoint
