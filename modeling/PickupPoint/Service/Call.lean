/-
The calls of the service as data, and what they answer: a session is a list of calls, performed one after the other.
-/
import PickupPoint.Service.Accept
import PickupPoint.Service.Process
import PickupPoint.Service.Query

namespace PickupPoint

inductive Call where
  | accept (a : Acceptance)
  | reclaim (id : Nat)
  | process (userId : Nat) (action : Action) (ids : List Nat)
  | importAll (records : List (Except RejectedRecord Acceptance))
  | list (userId : Nat) (inPickupPoint : Bool) (last page limit : Nat)
  | returns (page limit : Nat)
  | scroll (userId cursor limit : Nat)
  | history (page count : Nat)
  | orderHistory (id : Nat)
  | get (id : Nat)

inductive Reply where
  | order (o : Order)
  | status (id : Nat) (status : Status)
  | batch (result : BatchResult)
  | imported (result : ImportResult)
  | page (orders : List Order) (total : Nat)
  | orders (orders : List Order)
  | scrolled (orders : List Order) (cursor : Nat)
  | history (entries : List HistoryEntry)

namespace Call

variable {σ κ : Type} [OrderStore σ] [HistoryCache κ]

def perform : Call → Act σ κ Reply
  | .accept a => return .order (← PickupPoint.accept a)
  | .reclaim id => return .status id (← PickupPoint.reclaim id)
  | .process userId action ids => return .batch (← PickupPoint.process userId action ids)
  | .importAll records => return .imported (← PickupPoint.importAll records)
  | .list userId inPickupPoint last page limit => do
    let (orders, total) ← listOrders userId inPickupPoint last page limit
    return .page orders total
  | .returns page limit => return .orders (← listReturns page limit)
  | .scroll userId cursor limit => do
    let (orders, next) ← scrollOrders userId cursor limit
    return .scrolled orders next
  | .history page count => return .history (← historyPage page count)
  | .orderHistory id => return .history (← PickupPoint.orderHistory id)
  | .get id => return .order (← getOrder id)

/-- one call after the others -/
def step (s : Site σ κ) (c : Call) : Site σ κ := (c.perform s).2

/-- the site after a session -/
def run (s : Site σ κ) (calls : List Call) : Site σ κ := calls.foldl step s

end Call
end PickupPoint
