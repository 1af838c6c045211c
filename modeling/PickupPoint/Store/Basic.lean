/-
What a store of orders offers. A store keeps the orders, the history of their statuses and an outbox of events. Each
operation gives an answer and the store after it.

Writes happen in a transaction, and parts of a transaction in savepoints. Whoever opens one keeps the store as it was
and hands it back in `rollback` or `rollbackTo`, where the store decides what a rollback leaves behind. A write is told
the time; a store may have a clock of its own.
-/
import PickupPoint.Event

namespace PickupPoint

/-- an operation on a store -/
abbrev Access (σ α : Type) := σ → Except Error α × σ

class OrderStore (σ : Type) where
  /-- the order with an id, read outside of a transaction -/
  order : Nat → Access σ Order
  /-- every order -/
  orders : Access σ (List Order)
  /-- A page of the history, newest first. For a count of zero a page has `defaultCount` entries. -/
  history (page count : Nat) : Access σ (List HistoryEntry)
  /-- the history of one order, oldest first -/
  orderHistory : Nat → Access σ (List HistoryEntry)
  /-- opens a transaction -/
  begin (now : Instant) : Access σ Unit
  /-- ends a transaction that opened on `start` and keeps what it wrote -/
  commit (start : σ) : Access σ Unit
  /-- ends a transaction that opened on `start` and drops what it wrote -/
  rollback (start now : σ) : σ
  savepoint : Access σ Unit
  release (start : σ) : Access σ Unit
  rollbackTo (start now : σ) : σ
  /-- the order with an id, read inside a transaction -/
  find : Nat → Access σ Order
  /-- fails with `duplicateOrder` for an id that is taken -/
  insert (o : Order) (now : Instant) : Access σ Unit
  /-- fails with `orderNotFound` for an id that is not stored -/
  update (o : Order) (now : Instant) : Access σ Unit
  delete : Nat → Access σ Unit
  appendHistory (id : Nat) (status : Status) (now : Instant) : Access σ Unit
  appendEvent : Event → Access σ Unit

/-- entries of a history page when the caller asks for none -/
def OrderStore.defaultCount : Nat := 50

/-- the count that a history page is cut to -/
def OrderStore.pageCount (count : Nat) : Nat := if count = 0 then defaultCount else count

end PickupPoint
