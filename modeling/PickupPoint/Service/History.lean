/-
Histories, read through the cache. A history that the cache does not have is read from the store and put into the cache,
and every change to an order drops its history from there. The cache never refuses anything: what it fails to do is as
if it had not been asked.
-/
import PickupPoint.Service.Transaction
import PickupPoint.Document

namespace PickupPoint

open Act

variable {σ κ : Type} [OrderStore σ] [HistoryCache κ]

/-- where the cache keeps the history of an order -/
def cacheKey (id : Nat) : String := toString id

/-- a call of the cache, whose failure goes unnoticed -/
def askCache {α : Type} (p : Point) (op : Instant → CacheAccess κ α) : Act σ κ (Option α) := do
  match ← attempt (arrive p false) with
  | .ok _ => onCache op
  | .error _ => return none

/-- the history that the cache holds, if it can be read -/
def cachedHistory (id : Nat) : Act σ κ (Option (List HistoryEntry)) := do
  let answer ← askCache .cacheGet (HistoryCache.get (cacheKey id))
  return (answer.bind (·)).bind historyOfText?

/-- puts a history into the cache -/
def keepHistory (id : Nat) (history : List HistoryEntry) : Act σ κ Unit := do
  let ttl := (← get).cacheTtl
  let _ ← askCache .cacheSet (HistoryCache.set (cacheKey id) (historyText history) ttl)

/-- drops the history of an order from the cache -/
def dropHistory (id : Nat) : Act σ κ Unit := do
  let _ ← askCache .cacheDelete (HistoryCache.delete (cacheKey id))

/-- the history in the store; an order without one is not known -/
def recordedHistory (id : Nat) : Act σ κ (List HistoryEntry) := do
  let history ← counted (storedOrderHistory id)
  if history.isEmpty then fail .orderNotFound
  return history

/-- every status that an order took, oldest first -/
def orderHistory (id : Nat) : Act σ κ (List HistoryEntry) := do
  match ← cachedHistory id with
  | some history => return history
  | none =>
    let history ← recordedHistory id
    keepHistory id history
    return history

/-- a page of all histories, newest entry first -/
def historyPage (page count : Nat) : Act σ κ (List HistoryEntry) := counted (storedHistory page count)

end PickupPoint
