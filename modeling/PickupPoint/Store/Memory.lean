/-
A store in memory. A transaction works on the store itself; a rollback puts back the store that the transaction opened
on, so nothing of it is left, the count of history ids included.
-/
import PickupPoint.Store.Basic
import PickupPoint.Store.OrderTable
import PickupPoint.Paging

namespace PickupPoint

structure Memory where
  orders : OrderTable
  /-- oldest first -/
  history : List HistoryEntry
  outbox : List Event
  /-- history ids given out so far -/
  historyIds : Nat
  deriving DecidableEq

namespace Memory

def empty : Memory := ⟨.empty, [], [], 0⟩

/-- stores an order as it is, without regard to its life so far -/
def seed (m : Memory) (o : Order) : Memory := { m with orders := m.orders.put o }

def find (id : Nat) : Access Memory Order := fun m =>
  match m.orders.find? id with
  | some o => (.ok o, m)
  | none => (.error .orderNotFound, m)

def insert (o : Order) : Access Memory Unit := fun m =>
  match m.orders.find? o.id with
  | some _ => (.error .duplicateOrder, m)
  | none => (.ok (), m.seed o)

def update (o : Order) : Access Memory Unit := fun m =>
  match m.orders.find? o.id with
  | some _ => (.ok (), m.seed o)
  | none => (.error .orderNotFound, m)

def delete (id : Nat) : Access Memory Unit := fun m =>
  match m.orders.find? id with
  | some _ => (.ok (), { m with orders := m.orders.erase id })
  | none => (.error .orderNotFound, m)

def appendHistory (id : Nat) (status : Status) (now : Instant) : Access Memory Unit := fun m =>
  (.ok (), { m with
    history := m.history ++ [⟨(m.historyIds + 1 : Nat), id, status, now⟩]
    historyIds := m.historyIds + 1 })

def appendEvent (e : Event) : Access Memory Unit := fun m => (.ok (), { m with outbox := m.outbox ++ [e] })

def orderHistory (m : Memory) (id : Nat) : List HistoryEntry := m.history.filter (·.orderId = id)

instance : OrderStore Memory where
  order := find
  orders m := (.ok m.orders.rows, m)
  history page count m := (.ok (pageOf m.history.reverse page (OrderStore.pageCount count)), m)
  orderHistory id m := (.ok (m.orderHistory id), m)
  begin _ m := (.ok (), m)
  commit _ m := (.ok (), m)
  rollback start _ := start
  savepoint m := (.ok (), m)
  release _ m := (.ok (), m)
  rollbackTo start _ := start
  find := find
  insert o _ := insert o
  update o _ := update o
  delete := delete
  appendHistory := appendHistory
  appendEvent := appendEvent

end Memory
end PickupPoint
