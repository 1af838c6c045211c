/-
A store in the tables of a database.

Every operation is a statement. A statement that the database refuses inside a transaction aborts it: all that follows is
refused as well, until a savepoint is rolled back or the transaction ends, and a commit of it rolls back in silence. An
id without a row id is refused before anything is sent.

The ids of history rows come from a sequence that no rollback winds back. The database has a clock of its own, of which
nothing is assumed: it may stand still or go back, and has nothing to do with the clock of the service. An order row is
created when its transaction opened, so rows made in one transaction share that time, and a history row when it is
written. A `StatementFault` makes the database refuse statements of a class.
-/
import PickupPoint.Clock
import PickupPoint.Store.Basic
import PickupPoint.Store.Row
import PickupPoint.Document

namespace PickupPoint

/-- kinds of statements -/
inductive Statement where
  | begin
  | commit
  | rollback
  | selectOrder
  | selectOrderForUpdate
  | insertOrder
  | updateOrder
  | deleteOrder
  | insertHistory
  | insertOutbox
  | listOrders
  | selectHistory
  | selectOrderHistory
  | createTables
  | insertVersion
  deriving DecidableEq, Repr

/-- the table that a statement works on -/
def Statement.table? : Statement → Option String
  | .selectOrder | .selectOrderForUpdate | .insertOrder | .updateOrder | .deleteOrder | .listOrders => some "orders"
  | .insertHistory | .selectHistory | .selectOrderHistory => some "order_history"
  | .insertOutbox => some "outbox"
  | .begin | .commit | .rollback | .createTables | .insertVersion => none

structure StatementFault where
  statement : Statement
  /-- number of the first statement that is refused, counted from 1 -/
  first : Nat
  count : Option Nat
  /-- the condition that the database names -/
  condition : String
  message : String
  /-- statements so far -/
  seen : Nat
  deriving DecidableEq, Repr

namespace StatementFault

def covers (f : StatementFault) (n : Nat) : Bool := f.first ≤ n && f.count.all (n < f.first + ·)

def notice (f : StatementFault) (s : Statement) : StatementFault :=
  if f.statement = s then { f with seen := f.seen + 1 } else f

/-- the condition of a key that is taken -/
def uniqueViolation : String := "23505"

def error (f : StatementFault) : Error :=
  if f.statement = .insertOrder ∧ f.condition = uniqueViolation then .duplicateOrder else .internal f.message

end StatementFault

structure OutboxRow where
  aggregateType : String
  aggregateId : String
  eventType : String
  payload : Event
  status : String
  deriving DecidableEq, Repr

structure Tables where
  orders : List OrderRow
  /-- oldest first -/
  history : List HistoryRow
  outbox : List OutboxRow
  /-- ids that the sequence has given out -/
  sequence : Nat
  /-- versions of the tables, none as long as they do not exist -/
  versions : List String
  /-- start of the open transaction -/
  transaction : Option Instant
  aborted : Bool
  /-- the clock of the database -/
  clock : Clock
  faults : List StatementFault

namespace Tables

/-- a database without tables -/
def blank (clock : Clock) : Tables := ⟨[], [], [], 0, [], none, false, clock, []⟩

def exists? (t : Tables) : Bool := !t.versions.isEmpty

/-! ## Statements -/

def abortedError : Error :=
  .internal "current transaction is aborted, commands ignored until end of transaction block"

def missing (table : String) : Error := .internal ("relation \"" ++ table ++ "\" does not exist")

/-- counts a statement; gives the fault that refuses it -/
def reach (s : Statement) (t : Tables) : Option StatementFault × Tables :=
  (t.faults.find? fun f => f.statement = s && f.covers (f.seen + 1), { t with faults := t.faults.map (·.notice s) })

/-- a refusal by the database -/
def refused {α : Type} (e : Error) : Access Tables α := fun t =>
  (.error e, { t with aborted := t.aborted || t.transaction.isSome })

/-- A statement that works on the tables. What its effect refuses, the database refuses. -/
def execute {α : Type} (s : Statement) (effect : Access Tables α) : Access Tables α := fun t =>
  if t.aborted then (.error abortedError, t)
  else
    match t.reach s with
    | (some f, t) => refused f.error t
    | (none, t) =>
      match s.table?, t.exists? with
      | some table, false => refused (missing table) t
      | _, _ =>
        match effect t with
        | (.ok a, t) => (.ok a, t)
        | (.error e, t) => refused e t

/-- what rows become, if they can -/
def convert {α β : Type} (f : α → Except Error β) (r : Except Error α × Tables) : Except Error β × Tables :=
  (r.1.bind f, r.2)

/-- what the clock of the database shows at a reading, in whole microseconds -/
def reading (t : Tables) (n : Nat) : Instant := (t.clock.readings n).atMicrosecond

def readClock (t : Tables) : Instant × Tables := (t.reading t.clock.taken, { t with clock := t.clock.advance })

/-- the time of the transaction; a statement outside of one is one of its own -/
def transactionTime (t : Tables) : Instant × Tables :=
  match t.transaction with
  | some started => (started, t)
  | none => t.readClock

/-! ## Orders -/

def row? (t : Tables) (id : Int) : Option OrderRow := t.orders.find? (·.id = id)

def selectRow (s : Statement) (id : Int) : Access Tables (Option OrderRow) := execute s fun t => (.ok (t.row? id), t)

/-- the order of a row that was looked for -/
def orderOf : Option OrderRow → Except Error Order
  | some r => r.toOrder
  | none => .error .orderNotFound

def select (s : Statement) (id : Nat) : Access Tables Order := fun t =>
  match toRowId id with
  | .ok id => convert orderOf (selectRow s id t)
  | .error e => (.error e, t)

/-- rows in the order of their creation -/
def byCreation (t : Tables) : List OrderRow :=
  t.orders.mergeSort fun a b => a.sortKey.isOlder b.sortKey

def listOrders : Access Tables (List Order) := fun t =>
  convert (·.mapM OrderRow.toOrder) (execute .listOrders (fun t => (.ok t.byCreation, t)) t)

def addOrder (row : NewOrderRow) (t : Tables) : Tables :=
  let (time, t) := t.transactionTime
  { t with orders := t.orders ++ [row.stored time] }

def insert (o : Order) : Access Tables Unit := fun t =>
  match o.toRow with
  | .error e => (.error e, t)
  | .ok row => execute .insertOrder (fun t =>
      match t.row? row.id with
      | some _ => (.error .duplicateOrder, t)
      | none => (.ok (), t.addOrder row)) t

/-- An update or deletion of the row with an id. That there is none is not for the database to refuse. -/
def onRow (s : Statement) (id : Int) (f : List OrderRow → List OrderRow) : Access Tables Unit := fun t =>
  match execute s (fun t => (.ok (t.row? id).isSome, { t with orders := f t.orders })) t with
  | (.ok true, t) => (.ok (), t)
  | (.ok false, t) => (.error .orderNotFound, t)
  | (.error e, t) => (.error e, t)

def changeRows (id : Int) (c : OrderChanges) (rows : List OrderRow) : List OrderRow :=
  rows.map fun r => if r.id = id then r.change c else r

def update (o : Order) (now : Instant) : Access Tables Unit := fun t =>
  match (do return (← o.toChanges now, ← toRowId o.id) : Except Error (OrderChanges × Int)) with
  | .ok (changes, id) => onRow .updateOrder id (changeRows id changes) t
  | .error e => (.error e, t)

def delete (id : Nat) : Access Tables Unit := fun t =>
  match toRowId id with
  | .ok id => onRow .deleteOrder id (·.filter (·.id ≠ id)) t
  | .error e => (.error e, t)

/-! ## History and outbox -/

/-- adds a history row with the next id -/
def addHistory (orderId : Int) (status : String) (createdAt : Instant) (t : Tables) : Tables :=
  { t with
    history := t.history ++ [⟨(t.sequence + 1 : Nat), orderId, status, createdAt⟩]
    sequence := t.sequence + 1 }

def appendHistory (id : Nat) (status : Status) : Access Tables Unit := fun t =>
  match toRowId id with
  | .error e => (.error e, t)
  | .ok id => execute .insertHistory (fun t =>
      let (time, t) := t.readClock
      (.ok (), t.addHistory id status.text time)) t

def aggregateType : String := "Order"

def appendEvent (e : Event) : Access Tables Unit := execute .insertOutbox fun t =>
  (.ok (), { t with
    outbox := t.outbox ++ [⟨aggregateType, toString e.order.id, e.eventType.text, e, "CREATED"⟩] })

/-- history rows in the order in which they were written -/
def byWriting (rows : List HistoryRow) : List HistoryRow := rows.mergeSort fun a b => a.sortKey.isOlder b.sortKey

/-- the newest first -/
def byWritingDown (rows : List HistoryRow) : List HistoryRow := rows.mergeSort fun a b => b.sortKey.isOlder a.sortKey

def historyPage (page count : Nat) : Access Tables (List HistoryEntry) := fun t =>
  let limit := OrderStore.pageCount count
  convert (·.mapM HistoryRow.toEntry) (execute .selectHistory (fun t =>
    (.ok (((byWritingDown t.history).drop (page * limit)).take limit), t)) t)

def orderHistory (id : Nat) : Access Tables (List HistoryEntry) := fun t =>
  match toRowId id with
  | .error e => (.error e, t)
  | .ok id => convert (·.mapM HistoryRow.toEntry) (execute .selectOrderHistory (fun t =>
      (.ok (byWriting (t.history.filter (·.orderId = id))), t)) t)

/-! ## Transactions -/

/-- the rows as they were, and what no rollback takes back -/
def restore (start t : Tables) : Tables :=
  { t with orders := start.orders, history := start.history, outbox := start.outbox, aborted := false }

def begin : Access Tables Unit := fun t =>
  match t.reach .begin with
  | (some f, t) => (.error f.error, t)
  | (none, t) =>
    let (time, t) := t.readClock
    (.ok (), { t with transaction := some time, aborted := false })

/-- what a rollback leaves -/
def rolledBack (start t : Tables) : Tables := { restore start t with transaction := none }

def commit (start : Tables) : Access Tables Unit := fun t =>
  match t.reach .commit with
  | (some f, t) => (.error f.error, rolledBack start t)
  | (none, t) => (.ok (), if t.aborted then rolledBack start t else { t with transaction := none })

/-- A rollback is carried out also if the database refuses it. -/
def rollback (start t : Tables) : Tables := rolledBack start (t.reach .rollback).2

def savepoint : Access Tables Unit := fun t => (if t.aborted then .error abortedError else .ok (), t)

/-- the end of a savepoint, which an aborted transaction refuses -/
def release (start : Tables) : Access Tables Unit := fun t =>
  if t.aborted then (.error abortedError, restore start t) else (.ok (), t)

instance : OrderStore Tables where
  order := select .selectOrder
  orders := listOrders
  history := historyPage
  orderHistory := orderHistory
  begin _ := begin
  commit := commit
  rollback := rollback
  savepoint := savepoint
  release := release
  rollbackTo := restore
  find := select .selectOrderForUpdate
  insert o _ := insert o
  update := update
  delete := delete
  appendHistory id status _ := appendHistory id status
  appendEvent := appendEvent

/-! ## Set-up -/

/-- name and number of the only version of the tables -/
def versionName : String := "2025-06-01-000000_create_pickup_point_tables"

def versionNumber : String := "20250601000000"

def migrationError (detail : String) : Error := .internal ("failed to run migrations: " ++ detail)

/-- what one act of a migration does; a failure has a text of its own -/
def migrationAct (s : Statement) (failure : String → String) : Access Tables Unit := fun t =>
  match t.reach s with
  | (some f, t) => (.error (migrationError (failure f.message)), t)
  | (none, t) => (.ok (), t)

/-- The acts of a migration, which are one transaction, up to the first that fails. -/
def migrationActs : List (Statement × (String → String)) :=
  [(.begin, id), (.createTables, fun m => "Failed to run " ++ versionName ++ " with: " ++ m), (.insertVersion, id),
    (.commit, id)]

/-- creates the tables unless they exist; the answer is the versions applied -/
def migrate : Access Tables (List String) := fun t =>
  if t.exists? then (.ok t.versions, t)
  else
    match migrationActs.foldl (fun r (s, failure) =>
        match r with
        | (.ok (), t) => migrationAct s failure t
        | (.error e, t) => (.error e, t)) ((.ok (), t) : Except Error Unit × Tables) with
    | (.ok (), t) => (.ok [versionNumber], { t with versions := [versionNumber] })
    | (.error e, t) => (.error e, t)

/-- a database with its tables -/
def empty (clock : Clock) : Tables := { blank clock with versions := [versionNumber] }

/-- puts a row, in place of one with its id -/
def putRow (r : OrderRow) (t : Tables) : Tables := { t with orders := t.orders.filter (·.id ≠ r.id) ++ [r] }

/-- puts an order that is created now -/
def seed (o : Order) (t : Tables) : Tables :=
  let (time, t) := t.readClock
  t.putRow ((NewOrderRow.mk o.id o.userId o.status.text o.expiresAt o.weight o.price o.package.text).stored time)

def addFault (f : StatementFault) (t : Tables) : Tables := { t with faults := t.faults ++ [f] }

def clearFaults (t : Tables) : Tables := { t with faults := [] }

end Tables
end PickupPoint
