/-
Orders that are written to a table and read back.

An order has a row just if its ids are row ids, and else nothing is written (`toRow_iff`, `insert_refused`). A price that
passed its check fits its column as it is. So an order with an exact deadline is read back as it was, but for how its
price is written, whether it was inserted or written over an order with its id (`rows_round_trip`). A deadline in a leap
second is the one that a column moves (`leap_second_lost`).
-/
import PickupPoint.Proofs.Rows

namespace PickupPoint

/-! ## Orders that have rows -/

theorem toRowId_out {id : Nat} (h : ¬ id ≤ maxRowId) : ∃ detail, toRowId id = .error (.invalidInput detail) :=
  ⟨_, if_neg h⟩

namespace Order

variable {o : Order}

theorem toRow_refused (h : ¬ o.Numbered) : ∃ detail, o.toRow = .error (.invalidInput detail) := by
  unfold toRow
  by_cases id : o.id ≤ maxRowId
  · obtain ⟨detail, refused⟩ := toRowId_out fun userId => h ⟨id, userId⟩
    rw [Tables.toRowId_of_le id, refused]
    exact ⟨detail, rfl⟩
  · obtain ⟨detail, refused⟩ := toRowId_out id
    rw [refused]
    exact ⟨detail, rfl⟩

theorem toRow_iff : (∃ row, o.toRow = .ok row) ↔ o.Numbered := by
  by_cases h : o.Numbered
  · exact iff_of_true ⟨_, toRow_numbered h⟩ h
  · obtain ⟨detail, refused⟩ := toRow_refused h
    refine iff_of_false ?_ h
    rintro ⟨row, made⟩
    cases refused.symm.trans made

end Order

namespace Tables

variable {o : Order} {t : Tables}

theorem insert_refused (h : ¬ o.Numbered) (t : Tables) :
    ∃ detail, insert o t = (.error (.invalidInput detail), t) := by
  obtain ⟨detail, refused⟩ := Order.toRow_refused h
  exact ⟨detail, by rw [insert, refused]⟩

theorem update_refused (h : ¬ o.Numbered) (now : Instant) (t : Tables) :
    ∃ detail, update o now t = (.error (.invalidInput detail), t) := by
  unfold update Order.toChanges
  by_cases userId : o.userId ≤ maxRowId
  · obtain ⟨detail, refused⟩ := toRowId_out fun id => h ⟨id, userId⟩
    rw [toRowId_of_le userId, refused]
    exact ⟨detail, rfl⟩
  · obtain ⟨detail, refused⟩ := toRowId_out userId
    rw [refused]
    exact ⟨detail, rfl⟩

/-! ## Reading back -/

/-- The order is read as it was written, up to how its price is written. -/
def ReadsBack (t : Tables) (o : Order) : Prop :=
  ∃ o', (∀ s, select s o.id t = (.ok o', t)) ∧ o.Alike (fun p p' => p'.value = p.value) o'

/-- Where one order was written, all others are as they were. -/
def Others (o : Order) (t t' : Tables) : Prop := ∀ id : Int, id ≠ o.id → t'.row? id = t.row? id

theorem readsBack_of_keeps (ready : t.Ready) (h : o.Storable) {r : OrderRow} (row : t.row? o.id = some r)
    (keeps : r.Keeps o) : t.ReadsBack o := by
  refine ⟨o.kept, fun s => ?_, rfl, rfl, rfl, rfl, rfl, rfl, kept_value h.price⟩
  rw [select_ready ready s h.id, row]
  exact Prod.ext keeps.toOrder rfl

theorem row?_id {id : Int} {r : OrderRow} (found : t.row? id = some r) : r.id = id := by
  simpa using List.find?_some found

/-- A row that is added is found if there was none with its id. -/
theorem row?_add (t : Tables) (r : OrderRow) (clock : Clock) (id : Int) :
    ({ t with orders := t.orders ++ [r], clock := clock } : Tables).row? id =
      (t.row? id).or (if r.id = id then some r else none) := by
  simp only [row?, List.find?_append, List.find?_singleton, decide_eq_true_eq]

/-- A row that is changed is found where it was. -/
theorem row?_change (t : Tables) (id : Int) (c : OrderChanges) (x : Int) :
    ({ t with orders := changeRows id c t.orders } : Tables).row? x =
      (t.row? x).map fun r => if r.id = id then r.change c else r := by
  have same : ∀ r : OrderRow, (if r.id = id then r.change c else r).id = r.id := fun r => by split_ifs <;> rfl
  simp only [row?, changeRows, List.find?_map, Function.comp_def, same]

theorem insert_readsBack (ready : t.Ready) (h : o.Storable) (free : t.row? o.id = none) :
    ∃ t', insert o t = (.ok (), t') ∧ t'.ReadsBack o ∧ Others o t t' := by
  have inserted := insert_ready ready h.toRow
  have free' : t.row? o.row.id = none := free
  obtain ⟨time, clock, added⟩ := t.addOrder_eq o.row
  rw [free'] at inserted
  dsimp only at inserted
  rw [added] at inserted
  have kept := h.stored time
  refine ⟨_, inserted, readsBack_of_keeps ⟨ready.faults, ready.created, ready.sane⟩ h ?_ kept, fun id other => ?_⟩
  · rw [row?_add, free, kept.id, if_pos rfl, Option.none_or]
  · rw [row?_add, kept.id, if_neg other.symm, Option.or_none]

theorem update_readsBack (ready : t.Ready) (h : o.Storable) (there : (t.row? o.id).isSome) (now : Instant) :
    ∃ t', update o now t = (.ok (), t') ∧ t'.ReadsBack o ∧ Others o t t' := by
  obtain ⟨old, found⟩ := Option.isSome_iff_exists.1 there
  obtain ⟨c, made, keeps⟩ := h.changed ⟨rfl, rfl, rfl, rfl, rfl, rfl, rfl⟩ now
  have updated := update_ready ready made h.id
  rw [if_pos there] at updated
  refine ⟨_, updated, readsBack_of_keeps ⟨ready.faults, ready.created, ready.sane⟩ h ?_ (keeps old (row?_id found)),
    fun id other => ?_⟩
  · rw [row?_change, found, Option.map_some, if_pos (row?_id found)]
  · rw [row?_change]
    rcases there : t.row? id with _ | r
    · rfl
    · rw [Option.map_some, if_neg (row?_id there ▸ other)]

end Tables

/-- a price that its column keeps: ten digits before the point at most, two after it, and no sign -/
def FitsColumn (p : Decimal) : Prop := p.scale = 2 ∧ 0 ≤ p.digits ∧ p.digits < 10 ^ 12

theorem storedPrice_fits {o : Order} (h : o.checkPrice = .ok ()) : FitsColumn (storedPrice o.price) := by
  obtain ⟨n, small, same⟩ := Order.checkPrice_ok_iff.1 h
  rw [storedPrice_checked same]
  exact ⟨rfl, Int.natCast_nonneg n, Int.ofNat_lt.2 small⟩

open Tables

/-- **Orders in rows.** An order converts to a row just if its id and that of its client are row ids. If they are not,
whatever the tables: it is an invalid input, to insert and to update, and nothing is written. If they are, its price
passes its check and its deadline is exact, then its price fits the column with nothing rounded, and where the tables are
ready the order is read back as it was, whether it was inserted or written over any row with its id. -/
theorem rows_round_trip (o : Order) (now : Instant) :
    ((∃ row, o.toRow = .ok row) ↔ o.id ≤ maxRowId ∧ o.userId ≤ maxRowId) ∧
    (¬ (o.id ≤ maxRowId ∧ o.userId ≤ maxRowId) → (∃ detail, o.toRow = .error (.invalidInput detail)) ∧
      ∀ t : Tables, (∃ detail, insert o t = (.error (.invalidInput detail), t)) ∧
        ∃ detail, update o now t = (.error (.invalidInput detail), t)) ∧
    (o.Storable → FitsColumn (storedPrice o.price) ∧ (storedPrice o.price).value = o.price.value ∧
      ∀ t : Tables, t.Ready →
        (t.row? o.id = none → ∃ t', insert o t = (.ok (), t') ∧ t'.ReadsBack o ∧ Others o t t') ∧
        ((t.row? o.id).isSome → ∃ t', update o now t = (.ok (), t') ∧ t'.ReadsBack o ∧ Others o t t')) := by
  refine ⟨Order.toRow_iff, fun out => ⟨Order.toRow_refused out, fun t => ?_⟩, fun h => ?_⟩
  · exact ⟨insert_refused out t, update_refused out now t⟩
  · exact ⟨storedPrice_fits h.price, kept_value h.price, fun t ready =>
      ⟨fun free => insert_readsBack ready h free, fun there => update_readsBack ready h there now⟩⟩

/-- a box of client 7, at a price with a zero too many -/
def pricedBox : Order := ⟨1, 7, .expects, ⟨60, 0⟩, .box, 2, ⟨30500, 3⟩⟩

/-- the box when it was collected: its client may bring it back by another deadline -/
def collectedBox : Order := { pricedBox with status := .accepted, expiresAt := ⟨172800, 0⟩ }

/-- tables with nothing in them, at a clock that ticks -/
def newTables : Tables := .empty (.ticking ⟨0, 0⟩)

/-- The box is inserted and read back, and written over when it is collected and read back again; another one has too
large an id. -/
theorem priced_box_round_trip :
    Order.Storable pricedBox ∧ Order.Storable collectedBox ∧ newTables.Ready ∧
      (∃ t, insert pricedBox newTables = (.ok (), t) ∧ t.ReadsBack pricedBox ∧ t.Ready ∧ (t.row? 1).isSome ∧
        ∃ t', update collectedBox ⟨0, 0⟩ t = (.ok (), t') ∧ t'.ReadsBack collectedBox ∧ Others collectedBox t t') ∧
      ∃ detail, insert { pricedBox with id := maxRowId + 1 } newTables = (.error (.invalidInput detail), newTables) := by
  have storable : Order.Storable pricedBox := ⟨by decide, by decide, by decide, by decide⟩
  have storable' : Order.Storable collectedBox := ⟨by decide, by decide, by decide, by decide⟩
  have ready : newTables.Ready := ⟨rfl, rfl, rfl⟩
  obtain ⟨-, -, kept⟩ := rows_round_trip pricedBox ⟨0, 0⟩
  obtain ⟨t, inserted, readsBack, -⟩ := ((kept storable).2.2 newTables ready).1 rfl
  have ready' : t.Ready := by
    rw [show t = (insert pricedBox newTables).2 by rw [inserted]]
    exact ⟨rfl, rfl, rfl⟩
  have there : (t.row? 1).isSome := by
    rw [show t = (insert pricedBox newTables).2 by rw [inserted]]
    rfl
  obtain ⟨-, -, kept'⟩ := rows_round_trip collectedBox ⟨0, 0⟩
  obtain ⟨t', updated, readsBack', others⟩ := ((kept' storable').2.2 t ready').2 there
  have out : ¬ (maxRowId + 1 ≤ maxRowId ∧ 7 ≤ maxRowId) := fun numbered => absurd numbered.1 (Nat.not_succ_le_self _)
  obtain ⟨-, refused, -⟩ := rows_round_trip { pricedBox with id := maxRowId + 1 } ⟨0, 0⟩
  exact ⟨storable, storable', ready, ⟨t, inserted, readsBack, ready', there, t', updated, readsBack', others⟩,
    ((refused out).2 newTables).1⟩

/-- the box with a deadline in a leap second -/
def leapBox : Order := { pricedBox with expiresAt := ⟨3599, 1000000000⟩ }

/-- The deadline is in whole microseconds and one that clocks show, and it is read back as the second after it. -/
theorem leap_second_lost :
    (leapBox.id ≤ maxRowId ∧ leapBox.userId ≤ maxRowId) ∧ leapBox.checkPrice = .ok () ∧
      (1000 ∣ leapBox.expiresAt.nano ∧ leapBox.expiresAt.Proper) ∧ (insert leapBox newTables).1 = .ok () ∧
      (select .selectOrder 1 (insert leapBox newTables).2).1.toOption.map (·.expiresAt) = some ⟨3600, 0⟩ ∧
      ¬ (insert leapBox newTables).2.ReadsBack leapBox := by
  have read : (select .selectOrder 1 (insert leapBox newTables).2).1.toOption.map (·.expiresAt) =
      some ⟨3600, 0⟩ := by decide +kernel
  refine ⟨⟨by decide, by decide⟩, by decide, ⟨by decide, .inr (by decide)⟩, by decide +kernel, read, ?_⟩
  rintro ⟨o', reads, alike⟩
  have found : (select .selectOrder 1 (insert leapBox newTables).2).1 = .ok o' := congrArg Prod.fst (reads .selectOrder)
  have moved : o'.expiresAt = ⟨3600, 0⟩ := by
    rw [found] at read
    exact Option.some.inj read
  have kept : o'.expiresAt = ⟨3599, 1000000000⟩ := alike.expiresAt
  exact absurd (kept.symm.trans moved) (by decide)

end PickupPoint
