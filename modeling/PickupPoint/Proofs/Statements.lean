/-
Statements of a database that refuses none on purpose.

Without faults a statement does what it is for, unless its transaction has been aborted or there are no tables
(`execute_faultless`). What reads outside of a transaction leaves the tables as they are (`execute_reads`). Where the
tables are `Ready`, every operation does what it is for, as long as ids have row ids.
-/
import Mathlib.Tactic.Common
import PickupPoint.Paging
import PickupPoint.Store.Tables

namespace PickupPoint

variable {α : Type}

namespace Tables

theorem reach_faultless {t : Tables} (h : t.faults = []) (s : Statement) : t.reach s = (none, t) := by
  obtain ⟨_, _, _, _, _, _, _, _, faults⟩ := t
  cases h
  rfl

theorem execute_faultless {t : Tables} (h : t.faults = []) (s : Statement) (effect : Access Tables α) :
    execute s effect t =
      if t.aborted then (.error abortedError, t)
      else
        match s.table?, t.exists? with
        | some table, false => refused (missing table) t
        | _, _ => match effect t with
          | (.ok a, t) => (.ok a, t)
          | (.error e, t) => refused e t := by
  obtain ⟨_, _, _, _, _, _, _, _, faults⟩ := t
  cases h
  rfl

theorem refused_outside {t : Tables} (h : t.transaction = none) (e : Error) :
    (refused e t : Except Error α × Tables) = (.error e, t) := by
  obtain ⟨_, _, _, _, _, _, aborted, _, _⟩ := t
  cases h
  cases aborted <;> rfl

/-- A statement that reads outside of a transaction leaves the tables as they are. -/
theorem execute_reads {t : Tables} (faults : t.faults = []) (outside : t.transaction = none) (s : Statement)
    (f : Tables → α) : (execute s (fun t => (.ok (f t), t)) t).2 = t := by
  rw [execute_faultless faults]
  split_ifs
  · rfl
  · split
    · rw [refused_outside outside]
    · rfl

theorem select_reads {t : Tables} (faults : t.faults = []) (outside : t.transaction = none) (s : Statement) (id : Nat) :
    (select s id t).2 = t := by
  unfold select selectRow convert
  split
  · exact execute_reads faults outside s _
  · rfl

theorem orderHistory_reads {t : Tables} (faults : t.faults = []) (outside : t.transaction = none) (id : Nat) :
    (orderHistory id t).2 = t := by
  unfold orderHistory convert
  split
  · rfl
  · exact execute_reads faults outside _ _

theorem listOrders_reads {t : Tables} (faults : t.faults = []) (outside : t.transaction = none) :
    (listOrders t).2 = t :=
  execute_reads faults outside _ byCreation

theorem historyPage_reads {t : Tables} (faults : t.faults = []) (outside : t.transaction = none) (page count : Nat) :
    (historyPage page count t).2 = t :=
  execute_reads faults outside .selectHistory fun t =>
    ((byWritingDown t.history).drop (page * OrderStore.pageCount count)).take (OrderStore.pageCount count)

/-! ## Transactions -/

theorem begin_faultless {t : Tables} (h : t.faults = []) :
    begin t = (.ok (), { t.readClock.2 with transaction := some t.readClock.1, aborted := false }) := by
  unfold begin
  rw [reach_faultless h]

theorem commit_faultless {t : Tables} (h : t.faults = []) (start : Tables) :
    commit start t = (.ok (), if t.aborted then rolledBack start t else { t with transaction := none }) := by
  unfold commit
  rw [reach_faultless h]

theorem rollback_faultless {t : Tables} (h : t.faults = []) (start : Tables) :
    rollback start t = rolledBack start t := by
  unfold rollback
  rw [reach_faultless h]

/-! ## Tables that are ready -/

/-- the tables are there, and nothing refuses a statement -/
structure Ready (t : Tables) : Prop where
  faults : t.faults = []
  created : t.exists? = true
  sane : t.aborted = false

theorem toRowId_of_le {id : Nat} (h : id ≤ maxRowId) : toRowId id = .ok (id : Int) := if_pos h

theorem execute_ready {t : Tables} (h : t.Ready) (s : Statement) (effect : Access Tables α) :
    execute s effect t = match effect t with
      | (.ok a, t) => (.ok a, t)
      | (.error e, t) => refused e t := by
  rw [execute_faultless h.faults, h.sane, h.created]
  cases s.table? <;> rfl

theorem select_ready {t : Tables} (h : t.Ready) (s : Statement) {id : Nat} (fits : id ≤ maxRowId) :
    select s id t = (orderOf (t.row? id), t) := by
  unfold select selectRow convert
  rw [toRowId_of_le fits]
  dsimp only
  rw [execute_ready h]
  rfl

theorem listOrders_ready {t : Tables} (h : t.Ready) : listOrders t = (t.byCreation.mapM OrderRow.toOrder, t) := by
  unfold listOrders convert
  rw [execute_ready h]
  rfl

/-- A row that is added comes last. -/
theorem addOrder_eq (t : Tables) (row : NewOrderRow) :
    ∃ time clock, t.addOrder row = { t with orders := t.orders ++ [row.stored time], clock := clock } := by
  obtain ⟨_, _, _, _, _, transaction, _, _, _⟩ := t
  cases transaction with
  | some started => exact ⟨_, _, rfl⟩
  | none => exact ⟨_, _, rfl⟩

/-- A row that is added in a transaction has its time. -/
theorem addOrder_inside {t : Tables} {started : Instant} (h : t.transaction = some started) (row : NewOrderRow) :
    t.addOrder row = { t with orders := t.orders ++ [row.stored started] } := by
  obtain ⟨_, _, _, _, _, _, _, _, _⟩ := t
  cases h
  rfl

/-- An order that is inserted gets a row of its own, last. -/
theorem insert_ready {t : Tables} (h : t.Ready) {o : Order} {row : NewOrderRow} (made : o.toRow = .ok row) :
    insert o t = match t.row? row.id with
      | some _ => refused .duplicateOrder t
      | none => (.ok (), t.addOrder row) := by
  unfold insert
  rw [made]
  dsimp only
  rw [execute_ready h]
  rcases t.row? row.id <;> rfl

theorem onRow_ready {t : Tables} (h : t.Ready) (s : Statement) (id : Int) (f : List OrderRow → List OrderRow) :
    onRow s id f t =
      (if (t.row? id).isSome then .ok () else .error .orderNotFound, { t with orders := f t.orders }) := by
  unfold onRow
  rw [execute_ready h]
  rcases t.row? id <;> rfl

theorem update_ready {t : Tables} (h : t.Ready) {o : Order} {now : Instant} {changes : OrderChanges}
    (made : o.toChanges now = .ok changes) (fits : o.id ≤ maxRowId) :
    update o now t = (if (t.row? o.id).isSome then .ok () else .error .orderNotFound,
      { t with orders := changeRows o.id changes t.orders }) := by
  unfold update
  rw [made, toRowId_of_le fits]
  exact onRow_ready h ..

theorem delete_ready {t : Tables} (h : t.Ready) {id : Nat} (fits : id ≤ maxRowId) :
    delete id t = (if (t.row? id).isSome then .ok () else .error .orderNotFound,
      { t with orders := t.orders.filter (·.id ≠ id) }) := by
  unfold delete
  rw [toRowId_of_le fits]
  exact onRow_ready h ..

theorem appendHistory_ready {t : Tables} (h : t.Ready) {id : Nat} (fits : id ≤ maxRowId) (status : Status) :
    appendHistory id status t = (.ok (), t.readClock.2.addHistory id status.text t.readClock.1) := by
  unfold appendHistory
  rw [toRowId_of_le fits]
  dsimp only
  rw [execute_ready h]

theorem appendEvent_ready {t : Tables} (h : t.Ready) (e : Event) :
    ∃ outbox, appendEvent e t = (.ok (), { t with outbox := outbox }) := by
  unfold appendEvent
  rw [execute_ready h]
  exact ⟨_, rfl⟩

theorem historyPage_ready {t : Tables} (h : t.Ready) (page count : Nat) :
    historyPage page count t =
      ((pageOf (byWritingDown t.history) page (OrderStore.pageCount count)).mapM HistoryRow.toEntry, t) := by
  unfold historyPage convert
  dsimp only
  rw [execute_ready h]
  rfl

theorem orderHistory_ready {t : Tables} (h : t.Ready) {id : Nat} (fits : id ≤ maxRowId) :
    orderHistory id t = ((byWriting (t.history.filter (·.orderId = (id : Int)))).mapM HistoryRow.toEntry, t) := by
  unfold orderHistory convert
  rw [toRowId_of_le fits]
  dsimp only
  rw [execute_ready h]
  rfl

end Tables

end PickupPoint
