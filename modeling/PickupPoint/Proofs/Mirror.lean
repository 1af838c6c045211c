/-
The tables of a database beside the store in memory.

The tables mirror the store (`Mirrors`) if their rows keep its orders, in the order in which these came, and its history.
Inside a transaction they go on doing so (`Within`), and whatever was refused there, a rollback brings the rows back
(`Mirrors.restored`). Every operation keeps this, as long as ids have row ids and times are whole microseconds, so the two
stores are side by side in the sense of a simulation (`mirror_sound`).

The clock of the database is free. Each row has a reading of it, a later one than the rows before it (`Shelved.created`,
`Recorded.written`), but a later reading need not show a later time. So histories are told alike where the clock never
goes back, and are only known to be told elsewhere.
-/
import Mathlib.Data.List.Sort
import PickupPoint.Proofs.Changes
import PickupPoint.Proofs.Rows

namespace PickupPoint

open List (Forall₂)

/-! ## Orders -/

theorem OrderTable.nodup_ids (t : OrderTable) : (t.rows.map (·.id)).Nodup :=
  List.pairwise_map.2 (t.ascending.imp fun below => below.ne)

theorem OrderTable.mem_rows_iff {t : OrderTable} {o : Order} : o ∈ t.rows ↔ t.find? o.id = some o := by
  refine ⟨fun mem => ?_, List.mem_of_find?_eq_some⟩
  rcases hx : t.find? o.id with _ | x
  · simpa using List.find?_eq_none.1 hx o mem
  · rw [List.inj_on_of_nodup_map t.nodup_ids (List.mem_of_find?_eq_some hx) mem (find?_id hx)]

/-- Orders by ascending ids are what is among them. -/
theorem eq_of_ascending {orders orders' : List Order} (h : orders.Pairwise (·.id < ·.id))
    (h' : orders'.Pairwise (·.id < ·.id)) (same : ∀ o, o ∈ orders ↔ o ∈ orders') : orders = orders' := by
  have irrefl : Std.Irrefl fun a b : Order => a.id < b.id := ⟨fun _ => Nat.lt_irrefl _⟩
  have antisymm : Std.Antisymm fun a b : Order => a.id < b.id :=
    ⟨fun _ _ below above => absurd (below.trans above) (Nat.lt_irrefl _)⟩
  exact h.eq_of_mem_iff h' same

/-- the row keeps the order under the id -/
def OrderTable.KeptIn (table : OrderTable) (id : Nat) (r : OrderRow) : Prop :=
  ∃ o, table.find? id = some o ∧ r.Keeps o ∧ o.Storable

/-- the rows keep the orders, in the order of their ids, and were created one after the other, at times that a clock has
shown -/
structure Shelved (ids : List Nat) (table : OrderTable) (rows : List OrderRow) (shown : List Instant) : Prop where
  kept : Forall₂ table.KeptIn ids rows
  all : ∀ id o, table.find? id = some o → id ∈ ids
  once : ids.Nodup
  created : (rows.map (·.createdAt)).Sublist shown

/-- Changes are not creations. -/
theorem createdAt_changeRows (id : Int) (c : OrderChanges) (rows : List OrderRow) :
    (Tables.changeRows id c rows).map (·.createdAt) = rows.map (·.createdAt) := by
  unfold Tables.changeRows
  rw [List.map_map]
  refine List.map_congr_left fun r _ => ?_
  dsimp only [Function.comp_apply]
  split_ifs <;> rfl

namespace Shelved

variable {ids : List Nat} {table : OrderTable} {rows : List OrderRow} {shown : List Instant}

theorem keptIn_id {id : Nat} {r : OrderRow} (h : table.KeptIn id r) : r.id = id := by
  obtain ⟨o, found, keeps, -⟩ := h
  rw [keeps.id, OrderTable.find?_id found]

theorem later (h : Shelved ids table rows shown) {shown' : List Instant} (more : shown.Sublist shown') :
    Shelved ids table rows shown' :=
  { h with created := h.created.trans more }

/-- The ids are those of the rows. -/
theorem ids_rows (h : Shelved ids table rows shown) : ids.map (fun id : Nat => (id : Int)) = rows.map (·.id) := by
  have same : Forall₂ (fun (id : Nat) (r : OrderRow) => (id : Int) = r.id) ids rows :=
    h.kept.imp fun _ _ kept => (keptIn_id kept).symm
  exact map_eq_of_forall₂ same

/-- A row is found where the order is. -/
theorem found (h : Shelved ids table rows shown) {id : Nat} {o : Order} (found : table.find? id = some o) :
    ∃ r, rows.find? (·.id = (id : Int)) = some r ∧ r.Keeps o ∧ o.Storable := by
  rcases find?_of_rows (fun _ _ => keptIn_id) h.kept id with ⟨-, r, hr, x, hx, keeps⟩ | ⟨away, -⟩
  · rw [found] at hx
    cases hx
    exact ⟨r, hr, keeps⟩
  · exact absurd (h.all id o found) away

theorem missing (h : Shelved ids table rows shown) {id : Nat} (none : table.find? id = none) :
    id ∉ ids ∧ rows.find? (·.id = (id : Int)) = .none := by
  rcases find?_of_rows (fun _ _ => keptIn_id) h.kept id with ⟨-, r, -, x, hx, -⟩ | away
  · rw [none] at hx
    cases hx
  · exact away

/-- A new order comes last. -/
theorem put (h : Shelved ids table rows shown) {o : Order} (free : table.find? o.id = none) (stores : o.Storable)
    {started : Instant} (after : (rows.map (·.createdAt) ++ [started]).Sublist shown) :
    Shelved (ids ++ [o.id]) (table.put o) (rows ++ [o.row.stored started]) shown := by
  obtain ⟨new, -⟩ := h.missing free
  refine ⟨?_, fun id x hx => ?_, ?_, ?_⟩
  · have others : ∀ id ∈ ids, id ≠ o.id := fun id mem same => new (same ▸ mem)
    have kept := (List.forall₂_and_left ids rows).2 ⟨others, h.kept⟩
    refine List.rel_append (kept.imp ?_) (.cons ⟨o, ?_, stores.stored started, stores⟩ .nil)
    · rintro id r ⟨other, x, hx, keeps⟩
      exact ⟨x, by rw [OrderTable.find?_put, if_neg other.symm, hx], keeps⟩
    · rw [OrderTable.find?_put, if_pos rfl]
  · rw [OrderTable.find?_put] at hx
    split_ifs at hx with same
    · exact List.mem_append_right _ (List.mem_singleton.2 same.symm)
    · exact List.mem_append_left _ (h.all id x hx)
  · exact List.nodup_append.2 ⟨h.once, List.nodup_singleton _, fun a ha b hb same =>
      new (List.mem_singleton.1 hb ▸ same ▸ ha)⟩
  · rwa [List.map_append]

/-- An order that is stored is written over its row. -/
theorem rewritten (h : Shelved ids table rows shown) {o x : Order} (found : table.find? o.id = some x)
    (stores : o.Storable) {c : OrderChanges} (keeps : ∀ r : OrderRow, r.id = o.id → (r.change c).Keeps o) :
    Shelved ids (table.put o) (Tables.changeRows o.id c rows) shown := by
  refine ⟨?_, fun id y hy => ?_, h.once, (createdAt_changeRows o.id c rows).symm ▸ h.created⟩
  · refine List.forall₂_map_right_iff.2 (h.kept.imp fun id r kept => ?_)
    have named := keptIn_id kept
    by_cases this : o.id = id
    · subst this
      rw [if_pos named]
      exact ⟨o, by rw [OrderTable.find?_put, if_pos rfl], keeps r named, stores⟩
    · rw [if_neg fun hr => this (Int.ofNat_inj.1 (hr.symm.trans named))]
      obtain ⟨y, hy, kept⟩ := kept
      exact ⟨y, by rw [OrderTable.find?_put, if_neg this, hy], kept⟩
  · rw [OrderTable.find?_put] at hy
    split_ifs at hy with this
    · exact this ▸ h.all _ x found
    · exact h.all id y hy

theorem dropped (h : Shelved ids table rows shown) (id : Nat) :
    Shelved (ids.filter (· ≠ id)) (table.erase id) (rows.filter (·.id ≠ (id : Int))) shown := by
  refine ⟨?_, fun id' x hx => ?_, h.once.filter _, (List.filter_sublist.map _).trans h.created⟩
  · have filtered : Forall₂ table.KeptIn (ids.filter (· ≠ id)) (rows.filter (·.id ≠ (id : Int))) := by
      refine List.rel_filter (fun id' r kept => ?_) h.kept
      simp only [decide_eq_true_eq, ne_eq, keptIn_id kept, Int.ofNat_inj]
    have others : ∀ id' ∈ ids.filter (· ≠ id), id' ≠ id := fun id' mem => by simpa using (List.mem_filter.1 mem).2
    refine ((List.forall₂_and_left _ _).2 ⟨others, filtered⟩).imp ?_
    rintro id' r ⟨other, x, hx, keeps⟩
    exact ⟨x, by rw [OrderTable.find?_erase, if_neg other.symm, hx], keeps⟩
  · rw [OrderTable.find?_erase] at hx
    split_ifs at hx with same
    exact List.mem_filter.2 ⟨h.all id' x hx, by simpa using Ne.symm same⟩

/-- All orders in the order in which they came. -/
theorem orders (h : Shelved ids table rows shown) :
    ∃ p : List Order, p.Perm table.rows ∧ p.map (·.id) = ids ∧ (∀ o ∈ p, o.Storable) ∧
      Forall₂ (fun o r => OrderRow.Keeps r o) p rows := by
  obtain ⟨p, found, keeps⟩ := forall₂_choose h.kept
  have named : p.map (·.id) = ids := by
    have same : Forall₂ (fun id (o : Order) => id = o.id) ids p :=
      found.imp fun id o ⟨_, hx, _⟩ => (OrderTable.find?_id hx).symm
    have mapped := List.forall₂_map_right_iff.2 same
    rw [List.forall₂_eq_eq_eq] at mapped
    exact mapped.symm
  have once : p.Nodup := List.Nodup.of_map _ (named ▸ h.once)
  have stored : ∀ o ∈ p, o ∈ table.rows ∧ o.Storable := by
    intro o ho
    obtain ⟨r, -, id, hx, -, stores⟩ := exists_of_forall₂ keeps ho
    exact ⟨OrderTable.mem_rows_iff.2 (by rw [OrderTable.find?_id hx, hx]), stores⟩
  refine ⟨p, ?_, named, fun o ho => (stored o ho).2, keeps.imp fun _ _ ⟨_, _, keeps, _⟩ => keeps⟩
  refine (List.perm_ext_iff_of_nodup once (List.Nodup.of_map _ table.nodup_ids)).2 fun o => ⟨fun ho => (stored o ho).1,
    fun ho => ?_⟩
  -- its id is among the ids, and so is an order under it in `p`
  have listed : o.id ∈ p.map (·.id) := named ▸ h.all _ o (OrderTable.mem_rows_iff.1 ho)
  obtain ⟨x, hx, same⟩ := List.mem_map.1 listed
  rwa [← List.inj_on_of_nodup_map table.nodup_ids (stored x hx).1 ho same]

/-- All orders in the order in which their rows are listed, whichever that is. -/
theorem listed (h : Shelved ids table rows shown) {rows' : List OrderRow} (perm : rows'.Perm rows) :
    ∃ p : List Order, p.Perm table.rows ∧ (p.map (·.id)).Perm ids ∧ (∀ o ∈ p, o.Storable) ∧
      Forall₂ (fun o r => OrderRow.Keeps r o) p rows' := by
  obtain ⟨p, all, named, stores, keeps⟩ := h.orders
  obtain ⟨q, kept, again⟩ := List.perm_comp_forall₂ perm keeps.flip
  exact ⟨q, again.trans all, named ▸ again.map _, fun o ho => stores o (again.subset ho), kept.flip⟩

end Shelved

/-! ## History -/

/-- the rows note the entries, and were written one after the other, under ids that a sequence gave out and at times that
a clock has shown -/
structure Recorded (entries : List HistoryEntry) (rows : List HistoryRow) (given : Nat) (shown : List Instant) : Prop where
  notes : Forall₂ (fun e r => HistoryRow.Notes r e) entries rows
  written : (rows.map (·.createdAt)).Sublist shown
  numbered : rows.Pairwise (·.id < ·.id)
  given : ∀ r ∈ rows, r.id ≤ given

namespace Recorded

variable {entries : List HistoryEntry} {rows : List HistoryRow} {given : Nat} {shown : List Instant}

theorem later (h : Recorded entries rows given shown) {given' : Nat} {shown' : List Instant} (le : given ≤ given')
    (more : shown.Sublist shown') : Recorded entries rows given' shown' :=
  { h with written := h.written.trans more, given := fun r hr => (h.given r hr).trans (Int.ofNat_le.2 le) }

theorem concat (h : Recorded entries rows given shown) {e : HistoryEntry} {r : HistoryRow} (notes : r.Notes e)
    (next : r.id = (given + 1 : Nat)) : Recorded (entries ++ [e]) (rows ++ [r]) (given + 1) (shown ++ [r.createdAt]) := by
  refine ⟨List.rel_append h.notes (.cons notes .nil), ?_, ?_, fun x hx => ?_⟩
  · rw [List.map_append]
    exact h.written.append (.refl _)
  · refine List.pairwise_append.2 ⟨h.numbered, List.pairwise_singleton _ _, fun x hx y hy => ?_⟩
    have before := h.given x hx
    rw [List.mem_singleton.1 hy, next]
    omega
  · rcases List.mem_append.1 hx with hx | hx
    · have before := h.given x hx
      omega
    · rw [List.mem_singleton.1 hx, next]

theorem proper (h : Recorded entries rows given shown) : ∀ e ∈ entries, e.createdAt.Proper := by
  intro e he
  obtain ⟨r, -, notes⟩ := exists_of_forall₂ h.notes he
  exact notes.proper

/-- Whichever rows are read, they tell entries. -/
theorem converts (h : Recorded entries rows given shown) {some : List HistoryRow} (among : some ⊆ rows) :
    ∃ entries', some.mapM HistoryRow.toEntry = .ok entries' := by
  have each : Forall₂ (fun _ r => ∃ e, HistoryRow.toEntry r = .ok e ∧ True) some some := by
    refine List.forall₂_same.2 fun r hr => ?_
    obtain ⟨_, -, notes⟩ := exists_of_forall₂ h.notes.flip (among hr)
    obtain ⟨e, converted, -⟩ := HistoryRow.Notes.toEntry notes
    exact ⟨e, converted, trivial⟩
  obtain ⟨entries', converted, -⟩ := mapM_of_forall₂ each
  exact ⟨entries', converted⟩

/-- Where the clock never went back, the rows were written in the order in which they are sorted: by their times, and
those of one time by their ids. -/
theorem sorted (h : Recorded entries rows given shown) (forward : shown.Pairwise (· ≤ ·)) :
    rows.Pairwise fun a b => a.sortKey.isOlder b.sortKey = true := by
  have times : rows.Pairwise (·.createdAt ≤ ·.createdAt) := List.pairwise_map.1 (forward.sublist h.written)
  exact (times.and h.numbered).imp fun both => SortKey.isOlder_of_le both.1 fun _ => both.2.le

/-- A page of both histories, the newest first. -/
theorem page (h : Recorded entries rows given shown) (page limit : Nat) :
    ∃ entries', (pageOf (Tables.byWritingDown rows) page limit).mapM HistoryRow.toEntry = .ok entries' ∧
      (shown.Pairwise (· ≤ ·) → Forall₂ HistoryEntry.Retold (pageOf entries.reverse page limit) entries') := by
  have among : pageOf (Tables.byWritingDown rows) page limit ⊆ rows := fun r hr =>
    List.mem_mergeSort.1 (List.mem_of_mem_drop (List.mem_of_mem_take hr))
  obtain ⟨entries', converted⟩ := h.converts among
  refine ⟨entries', converted, fun forward => ?_⟩
  have distinct : (rows.map (·.id)).Nodup := List.pairwise_map.2 (h.numbered.imp fun below => below.ne)
  rw [Tables.byWritingDown_eq (h.sorted forward) distinct] at converted
  obtain ⟨told, again, retold⟩ :=
    toEntry_rows (List.forall₂_take limit (List.forall₂_drop (page * limit) (List.forall₂_reverse_iff.2 h.notes)))
  cases converted.symm.trans again
  exact retold

/-- The history of one order. -/
theorem ofOrder (h : Recorded entries rows given shown) (id : Nat) :
    ∃ entries', (Tables.byWriting (rows.filter (·.orderId = (id : Int)))).mapM HistoryRow.toEntry = .ok entries' ∧
      (shown.Pairwise (· ≤ ·) → Forall₂ HistoryEntry.Retold (entries.filter (·.orderId = id)) entries') := by
  have among : Tables.byWriting (rows.filter (·.orderId = (id : Int))) ⊆ rows := fun r hr =>
    (List.mem_filter.1 (List.mem_mergeSort.1 hr)).1
  obtain ⟨entries', converted⟩ := h.converts among
  refine ⟨entries', converted, fun forward => ?_⟩
  rw [Tables.byWriting_eq ((h.sorted forward).filter _)] at converted
  have notes : Forall₂ (fun e r => HistoryRow.Notes r e) (entries.filter (·.orderId = id))
      (rows.filter (·.orderId = (id : Int))) := by
    refine List.rel_filter (fun e r notes => ?_) h.notes
    simp only [decide_eq_true_eq, notes.orderId, Int.ofNat_inj]
  obtain ⟨told, again, retold⟩ := toEntry_rows notes
  cases converted.symm.trans again
  exact retold

end Recorded

/-! ## Stores -/

/-- The tables mirror the store, its orders in the order in which they came. -/
structure Mirrors (ids : List Nat) (m : Memory) (t : Tables) : Prop where
  ready : t.Ready
  shelf : Shelved ids m.orders t.orders t.shown
  log : Recorded m.history t.history t.sequence t.shown

/-- So they do inside a transaction, whose time was read after all that came before it was created. -/
structure Within (untouched : Bool) (ids : List Nat) (m : Memory) (t : Tables) : Prop extends Mirrors ids m t where
  opened : ∃ started, t.transaction = some started ∧
    (untouched = true → (t.orders.map (·.createdAt) ++ [started]).Sublist t.shown)

/-- what tables keep in a transaction, whatever is refused -/
structure Held (t₀ t : Tables) : Prop where
  faults : t.faults = []
  versions : t.versions = t₀.versions
  transaction : t.transaction = t₀.transaction
  readings : t.clock.readings = t₀.clock.readings
  shown : t₀.shown.Sublist t.shown
  sequence : t₀.sequence ≤ t.sequence

theorem Held.trans {t₀ t₁ t₂ : Tables} (h₁ : Held t₀ t₁) (h₂ : Held t₁ t₂) : Held t₀ t₂ where
  faults := h₂.faults
  versions := h₂.versions.trans h₁.versions
  transaction := h₂.transaction.trans h₁.transaction
  readings := h₂.readings.trans h₁.readings
  shown := h₁.shown.trans h₂.shown
  sequence := h₁.sequence.trans h₂.sequence

section Stores

variable {ids : List Nat} {k : Bool} {m : Memory} {t t₁ : Tables}

theorem Mirrors.held (h : Mirrors ids m t) : Held t t := ⟨h.ready.faults, rfl, rfl, rfl, .refl _, le_refl _⟩

theorem Mirrors.held_rows (h : Mirrors ids m t) (rows : List OrderRow) : Held t { t with orders := rows } :=
  ⟨h.ready.faults, rfl, rfl, rfl, .refl _, le_refl _⟩

theorem Mirrors.refused {α : Type} (h : Mirrors ids m t) (e : Error) :
    Held t (Tables.refused e t : Except Error α × Tables).2 :=
  ⟨h.ready.faults, rfl, rfl, rfl, .refl _, le_refl _⟩

/-- The rows as they were still mirror the store as it was. -/
theorem Mirrors.restored (h : Mirrors ids m t) (held : Held t t₁) : Mirrors ids m (Tables.restore t t₁) where
  ready := ⟨held.faults, by
    have created := h.ready.created
    unfold Tables.exists? at created ⊢
    rwa [← held.versions] at created, rfl⟩
  shelf := h.shelf.later held.shown
  log := h.log.later held.sequence held.shown

theorem Within.restored (h : Within k ids m t) (held : Held t t₁) : Within k ids m (Tables.restore t t₁) where
  toMirrors := h.toMirrors.restored held
  opened := by
    obtain ⟨started, opened, after⟩ := h.opened
    exact ⟨started, held.transaction.trans opened, fun untouched => (after untouched).trans held.shown⟩

/-- An operation that changes the rows of orders. -/
theorem Within.rows (h : Within k ids m t) {k' : Bool} {ids' : List Nat} {table : OrderTable} {rows : List OrderRow}
    (shelf : Shelved ids' table rows t.shown)
    (fewer : k' = true → k = true ∧ (rows.map (·.createdAt)).Sublist (t.orders.map (·.createdAt))) :
    Within k' ids' { m with orders := table } { t with orders := rows } ∧ Held t { t with orders := rows } := by
  obtain ⟨started, opened, after⟩ := h.opened
  refine ⟨⟨⟨⟨h.ready.faults, h.ready.created, h.ready.sane⟩, shelf, h.log⟩, started, opened, fun untouched => ?_⟩,
    h.held_rows rows⟩
  obtain ⟨untouched, fewer⟩ := fewer untouched
  exact (fewer.append (.refl _)).trans (after untouched)

/-- The clock of the database shows what it would have shown. -/
theorem forward_of_readings {t t' : Tables} (same : t'.clock.readings = t.clock.readings) (forward : Monotone t.reading) :
    Monotone t'.reading := by
  have reads : t'.reading = t.reading := funext fun n => congrArg (fun r => (r n).atMicrosecond) same
  rwa [reads]

end Stores

/-- The store in memory beside the tables of a database. If its clock never goes back, histories are told alike. -/
def mirror (forward : Prop) : Simulation Memory Tables where
  rest ids m t := Mirrors ids m t ∧ t.transaction = none ∧ (forward → Monotone t.reading)
  work := Within
  since _ t₀ _ t := Held t₀ t
  time now := 1000 ∣ now.nano ∧ now.Proper
  fits id := id ≤ maxRowId
  takes a := a.orderId ≤ maxRowId ∧ a.userId ≤ maxRowId ∧ a.expiresAt.Exact
  stores := Order.Storable
  price := KeptPrice
  told l l' := forward → Forall₂ HistoryEntry.Retold l l'
  listed l l' := l.Pairwise (·.id < ·.id) ∧ ∃ p : List Order, p.Perm l ∧ (∀ o ∈ p, o.Storable) ∧ l' = p.map Order.kept

/-! ## Operations -/

section Operations

open Simulation

variable {ids : List Nat} {k : Bool} {m : Memory} {t : Tables} {id : Nat} {now : Instant}

/-- An order is found in both stores or in none. -/
theorem mirror_find (h : Mirrors ids m t) (fits : id ≤ maxRowId) (s : Statement) :
    Match (fun o o' m' t' => (o.Alike KeptPrice o' ∧ o.Storable) ∧ m' = m ∧ t' = t) (fun m' t' => m' = m ∧ t' = t)
      (Memory.find id m).1 (Tables.select s id t).1 (Memory.find id m).2 (Tables.select s id t).2 := by
  rw [Tables.select_ready h.ready s fits]
  unfold Memory.find
  rcases hx : m.orders.find? id with _ | o
  · rw [show t.row? id = none from (h.shelf.missing hx).2]
    exact .error ⟨rfl, rfl⟩
  · obtain ⟨r, hr, keeps, stores⟩ := h.shelf.found hx
    rw [show t.row? id = some r from hr]
    dsimp only [Tables.orderOf]
    rw [keeps.toOrder]
    exact .ok ⟨⟨stores.alike, stores⟩, rfl, rfl⟩

theorem mirror_orders {forward : Prop} (h : Mirrors ids m t) :
    Reads (mirror forward).listed m t (OrderStore.orders m) (OrderStore.orders t) := by
  show Match _ _ (.ok m.orders.rows) (Tables.listOrders t).1 m (Tables.listOrders t).2
  obtain ⟨p, perm, -, stores, keeps⟩ := h.shelf.listed (List.mergeSort_perm t.orders _)
  rw [Tables.listOrders_ready h.ready, Tables.byCreation, toOrder_rows keeps]
  exact .ok ⟨⟨m.orders.ascending, p, perm, stores, rfl⟩, rfl, rfl⟩

variable {forward : Prop} (ahead : forward → Monotone t.reading)
include ahead

theorem mirror_history (h : Mirrors ids m t) (page count : Nat) :
    Reads (mirror forward).told m t (OrderStore.history page count m) (OrderStore.history page count t) := by
  show Match _ _ (.ok (pageOf m.history.reverse page (OrderStore.pageCount count)))
    (Tables.historyPage page count t).1 m (Tables.historyPage page count t).2
  obtain ⟨entries, converted, told⟩ := h.log.page page (OrderStore.pageCount count)
  rw [Tables.historyPage_ready h.ready, converted]
  exact .ok ⟨fun hf => told (Tables.shown_ascending (ahead hf)), rfl, rfl⟩

theorem mirror_orderHistory (h : Mirrors ids m t) (fits : id ≤ maxRowId) :
    Reads (mirror forward).told m t (OrderStore.orderHistory id m) (OrderStore.orderHistory id t) := by
  show Match _ _ (.ok (m.orderHistory id)) (Tables.orderHistory id t).1 m (Tables.orderHistory id t).2
  obtain ⟨entries, converted, told⟩ := h.log.ofOrder id
  rw [Tables.orderHistory_ready h.ready fits, converted]
  exact .ok ⟨fun hf => told (Tables.shown_ascending (ahead hf)), rfl, rfl⟩

omit ahead

theorem mirror_insert {o : Order} (h : Within true ids m t) (stores : o.Storable) :
    (mirror forward).Moves (fun _ _ => (mirror forward).work false (ids ++ [o.id])) m t (Memory.insert o m)
      (Tables.insert o t) := by
  rw [Tables.insert_ready h.ready stores.toRow]
  unfold Memory.insert
  rcases hx : m.orders.find? o.id with _ | x
  · rw [show t.row? o.row.id = none from (h.shelf.missing hx).2]
    obtain ⟨started, opened, after⟩ := h.opened
    dsimp only
    rw [Tables.addOrder_inside opened]
    exact .ok (h.rows (h.shelf.put hx stores (after rfl)) nofun)
  · obtain ⟨r, hr, -⟩ := h.shelf.found hx
    rw [show t.row? o.row.id = some r from hr]
    exact .error (h.refused .duplicateOrder)

theorem mirror_update {o o' : Order} (h : Within k ids m t) (stores : o.Storable) (alike : o.Alike KeptPrice o') :
    (mirror forward).Moves (fun _ _ => (mirror forward).work k ids) m t (Memory.update o m) (Tables.update o' now t) := by
  have same : storedPrice o'.price = storedPrice o.price := by rw [alike.price.1, storedPrice_storedPrice]
  obtain ⟨c, made, keeps⟩ := stores.changed { alike with price := same } now
  rw [Tables.update_ready h.ready made (alike.id ▸ stores.id), alike.id]
  unfold Memory.update
  rcases hx : m.orders.find? o.id with _ | x
  · rw [show t.row? o.id = none from (h.shelf.missing hx).2]
    exact .error (h.held_rows _)
  · obtain ⟨r, hr, -⟩ := h.shelf.found hx
    rw [show t.row? o.id = some r from hr]
    refine .ok (h.rows (h.shelf.rewritten hx stores keeps) fun untouched => ⟨untouched, ?_⟩)
    rw [createdAt_changeRows]

theorem mirror_delete (h : Within k ids m t) (fits : id ≤ maxRowId) :
    (mirror forward).Moves (fun _ _ => (mirror forward).work k (ids.filter (· ≠ id))) m t (Memory.delete id m)
      (Tables.delete id t) := by
  rw [Tables.delete_ready h.ready fits]
  unfold Memory.delete
  rcases hx : m.orders.find? id with _ | x
  · rw [show t.row? id = none from (h.shelf.missing hx).2]
    exact .error (h.held_rows _)
  · obtain ⟨r, hr, -⟩ := h.shelf.found hx
    rw [show t.row? id = some r from hr]
    exact .ok (h.rows (h.shelf.dropped id) fun untouched => ⟨untouched, List.filter_sublist.map _⟩)

/-- The clock is read once more. -/
theorem Held.ofReading (faults : t.faults = []) : Held t t.readClock.2 :=
  ⟨faults, rfl, rfl, rfl, Tables.shown_readClock t ▸ List.sublist_append_left _ _, le_refl _⟩

theorem mirror_appendHistory (h : Within k ids m t) (fits : id ≤ maxRowId) (status : Status) (proper : now.Proper) :
    (mirror forward).Moves (fun _ _ => (mirror forward).work k ids) m t (Memory.appendHistory id status now m)
      (Tables.appendHistory id status t) := by
  have read := Held.ofReading h.ready.faults
  obtain ⟨started, opened, after⟩ := h.opened
  rw [Tables.appendHistory_ready h.ready fits]
  have log := h.log.concat (r := ⟨(t.sequence + 1 : Nat), id, status.text, t.readClock.1⟩)
    (e := ⟨m.historyIds + 1, id, status, now⟩) ⟨rfl, rfl, proper, Tables.reading_proper t _⟩ rfl
  rw [← Tables.shown_readClock] at log
  refine .ok ⟨⟨⟨⟨h.ready.faults, h.ready.created, h.ready.sane⟩, h.shelf.later read.shown, log⟩, started, opened,
    fun untouched => (after untouched).trans read.shown⟩, read.faults, rfl, rfl, rfl, read.shown, Nat.le_succ _⟩

theorem mirror_appendEvent (h : Within k ids m t) (e e' : Event) :
    (mirror forward).Moves (fun _ _ => (mirror forward).work k ids) m t (Memory.appendEvent e m)
      (Tables.appendEvent e' t) := by
  obtain ⟨outbox, done⟩ := Tables.appendEvent_ready h.ready e'
  rw [done]
  exact .ok ⟨⟨⟨⟨h.ready.faults, h.ready.created, h.ready.sane⟩, h.shelf, h.log⟩, h.opened⟩, h.ready.faults, rfl, rfl,
    rfl, .refl _, le_refl _⟩

/-! ## Scopes -/

/-- A transaction opens at a reading after all that came before it. -/
theorem mirror_begin (h : (mirror forward).rest ids m t) :
    Match
      (fun _ _ m₁ t₁ => Within true ids m₁ t₁ ∧ ∀ m₂ t₂, Held t₁ t₂ →
        (mirror forward).rest ids m (Tables.rollback t t₂) ∧
        ∀ k ids', Within k ids' m₂ t₂ →
          Match (fun _ _ => (mirror forward).rest ids') ((mirror forward).rest ids) (.ok () : Except Error Unit)
            (Tables.commit t t₂).1 m₂ (Tables.commit t t₂).2)
      ((mirror forward).rest ids) (.ok () : Except Error Unit) (Tables.begin t).1 m (Tables.begin t).2 := by
  obtain ⟨h, -, ahead⟩ := h
  have read := Held.ofReading h.ready.faults
  have after : (t.orders.map (·.createdAt) ++ [t.readClock.1]).Sublist t.readClock.2.shown :=
    Tables.shown_readClock t ▸ h.shelf.created.append (.refl _)
  rw [Tables.begin_faultless h.ready.faults]
  refine .ok ⟨⟨⟨⟨h.ready.faults, h.ready.created, rfl⟩, h.shelf.later read.shown, h.log.later le_rfl read.shown⟩, _, rfl,
    fun _ => after⟩, fun m₂ t₂ held => ⟨?_, fun k ids' work => ?_⟩⟩
  · have since : Held { t with transaction := t₂.transaction } t₂ :=
      ⟨held.faults, held.versions, rfl, held.readings, read.shown.trans held.shown, held.sequence⟩
    have here : Mirrors ids m { t with transaction := t₂.transaction } :=
      ⟨⟨h.ready.faults, h.ready.created, h.ready.sane⟩, h.shelf, h.log⟩
    rw [Tables.rollback_faultless held.faults]
    obtain ⟨⟨faults, created, sane⟩, shelf, log⟩ := here.restored since
    exact ⟨⟨⟨faults, created, sane⟩, shelf, log⟩, rfl, fun hf => forward_of_readings held.readings (ahead hf)⟩
  · rw [Tables.commit_faultless work.ready.faults, if_neg (by rw [work.ready.sane]; decide)]
    exact .ok ⟨⟨⟨work.ready.faults, work.ready.created, work.ready.sane⟩, work.shelf, work.log⟩, rfl,
      fun hf => forward_of_readings held.readings (ahead hf)⟩

/-- A savepoint in a transaction that goes on. -/
theorem mirror_savepoint (h : Within k ids m t) :
    Match
      (fun _ _ m₁ t₁ => Within k ids m₁ t₁ ∧ Held t t₁ ∧ ∀ m₂ t₂, Held t₁ t₂ →
        (Within k ids m (Tables.restore t t₂) ∧ Held t (Tables.restore t t₂)) ∧
        (Within k ids m₂ t₂ → Match (fun _ _ m₃ t₃ => Within k ids m₃ t₃ ∧ Held t t₃)
          (fun m₃ t₃ => Within k ids m₃ t₃ ∧ Held t t₃) (.ok () : Except Error Unit) (Tables.release t t₂).1 m₂
          (Tables.release t t₂).2))
      (fun m₁ t₁ => Within k ids m₁ t₁ ∧ Held t t₁) (.ok () : Except Error Unit) (Tables.savepoint t).1 m
      (Tables.savepoint t).2 := by
  unfold Tables.savepoint
  rw [h.ready.sane]
  refine .ok ⟨h, h.held, fun m₂ t₂ held => ⟨⟨h.restored held, ?_⟩, fun work => ?_⟩⟩
  · exact ⟨held.faults, held.versions, held.transaction, held.readings, held.shown, held.sequence⟩
  · unfold Tables.release
    rw [work.ready.sane]
    exact .ok ⟨work, held⟩

end Operations

/-! ## Soundness -/

/-- What an action makes of an order can be stored if the order could. -/
theorem Order.Storable.after {o o' : Order} {action : Action} {now : Instant} {t : EventType} (h : o.Storable)
    (whole : 1000 ∣ now.nano) (after : o.after action now = .ok (o', t)) : o'.Storable := by
  have exact : (Order.returnDeadline now).Exact :=
    ⟨(Nat.dvd_mod_iff (by decide)).2 whole, Nat.mod_lt _ (by decide)⟩
  obtain ⟨-, ⟨-, -, rfl⟩ | ⟨-, -, rfl⟩⟩ := Order.after_ok after
  · exact ⟨h.id, h.userId, exact, h.price⟩
  · exact ⟨h.id, h.userId, h.expiresAt, h.price⟩

theorem mirror_sound (forward : Prop) : (mirror forward).Sound where
  since_refl work := work.held
  since_trans h₁ h₂ := h₁.trans h₂
  takes_fits takes := takes.1
  stores_fits stores := stores.id
  stores_taken takes id userId expiresAt price :=
    ⟨id ▸ takes.1, userId ▸ takes.2.1, expiresAt ▸ takes.2.2, price⟩
  stores_after stores time after := stores.after time.1 after
  order h fits := (mirror_find h.1 fits .selectOrder).mono (fun _ _ _ _ hq => ⟨hq.1.1, hq.2⟩) fun _ _ he => he
  orders h := mirror_orders h.1
  history h := mirror_history h.2.2 h.1 _ _
  orderHistory h fits := mirror_orderHistory h.2.2 h.1 fits
  begin h _ := mirror_begin h
  savepoint h := mirror_savepoint h
  find h fits := (mirror_find h.toMirrors fits .selectOrderForUpdate).mono
    (fun _ _ _ _ ⟨found, hm, ht⟩ => ⟨⟨found, hm ▸ ht ▸ h⟩, ht ▸ h.held⟩) fun _ _ ⟨_, ht⟩ => ht ▸ h.held
  insert h stores _ := mirror_insert h stores
  update h stores alike _ := mirror_update h stores alike
  delete h fits := mirror_delete h fits
  appendHistory h fits time := mirror_appendHistory h fits _ time.2
  appendEvent h _ := mirror_appendEvent h _ _

end PickupPoint
