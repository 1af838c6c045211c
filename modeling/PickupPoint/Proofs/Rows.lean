/-
Rows that keep orders and history entries.

An order that is `Storable` has a row that keeps it, and such a row reads back as the order with its price as the column
keeps it (`OrderRow.Keeps.toOrder`). History rows that note entries read back as entries of the same order and status.

Rows stand side by side with ids: a row is found by its id as the order is (`find?_of_rows`). What sorts rows is their
`SortKey`, the time and then the id, so rows of one time come by their ids; rows of different keys have one order
(`SortKey.eq_of_sorted`).
-/
import Mathlib.Data.List.Forall2
import Mathlib.Data.List.Nodup
import PickupPoint.Proofs.Columns
import PickupPoint.Proofs.Simulation
import PickupPoint.Proofs.Statements

namespace PickupPoint

open List (Forall₂)

/-! ## Rows of orders -/

/-- the price as a column keeps it, with nothing lost -/
def KeptPrice (p p' : Decimal) : Prop := p' = storedPrice p ∧ p'.sameValue p = true

/-- the order with its price as a column keeps it -/
def Order.kept (o : Order) : Order := { o with price := storedPrice o.price }

/-- an order that tables keep -/
structure Order.Storable (o : Order) : Prop where
  id : o.id ≤ maxRowId
  userId : o.userId ≤ maxRowId
  expiresAt : o.expiresAt.Exact
  price : o.checkPrice = .ok ()

theorem Order.Storable.alike {o : Order} (h : o.Storable) : o.Alike KeptPrice o.kept :=
  ⟨rfl, rfl, rfl, rfl, rfl, rfl, rfl, kept_sameValue h.price⟩

/-- the row keeps the order -/
structure OrderRow.Keeps (r : OrderRow) (o : Order) : Prop where
  id : r.id = o.id
  userId : r.userId = o.userId
  status : r.status = o.status.text
  expiresAt : r.expiresAt = o.expiresAt
  weight : r.weight = o.weight
  totalPrice : r.totalPrice = storedPrice o.price
  packageType : r.packageType = o.package.text

theorem Status.parse_text (s : Status) : Status.parse s.text = .ok s := by cases s <;> rfl

theorem Package.parse_text (p : Package) : Package.parse p.text = .ok p := by cases p <;> rfl

theorem ofRowId_natCast (id : Nat) : ofRowId id = .ok id := if_pos (Int.natCast_nonneg id)

theorem OrderRow.Keeps.toOrder {r : OrderRow} {o : Order} (h : r.Keeps o) : r.toOrder = .ok o.kept := by
  obtain ⟨id, userId, status, expiresAt, weight, totalPrice, packageType⟩ := h
  unfold OrderRow.toOrder
  rw [id, userId, status, packageType, expiresAt, weight, totalPrice, ofRowId_natCast, ofRowId_natCast,
    Status.parse_text, Package.parse_text]
  rfl

/-- the row to insert for an order -/
def Order.row (o : Order) : NewOrderRow :=
  ⟨o.id, o.userId, o.status.text, o.expiresAt, o.weight, o.price, o.package.text⟩

/-- The ids of the order and of its client are row ids. -/
def Order.Numbered (o : Order) : Prop := o.id ≤ maxRowId ∧ o.userId ≤ maxRowId

theorem Order.toRow_numbered {o : Order} (h : o.Numbered) : o.toRow = .ok o.row := by
  unfold Order.toRow
  rw [Tables.toRowId_of_le h.1, Tables.toRowId_of_le h.2]
  rfl

theorem Order.Storable.toRow {o : Order} (h : o.Storable) : o.toRow = .ok o.row :=
  Order.toRow_numbered ⟨h.id, h.userId⟩

theorem Order.Storable.stored {o : Order} (h : o.Storable) (createdAt : Instant) : (o.row.stored createdAt).Keeps o :=
  ⟨rfl, rfl, rfl, h.expiresAt.kept, rfl, rfl, rfl⟩

/-- An order is written over the row with its id, whatever that kept. Its price may be one that the column keeps in the
same way. -/
theorem Order.Storable.changed {o o' : Order} (h : o.Storable)
    (alike : o.Alike (fun p p' => storedPrice p' = storedPrice p) o') (now : Instant) :
    ∃ c, o'.toChanges now = .ok c ∧ ∀ r : OrderRow, r.id = o.id → (r.change c).Keeps o := by
  obtain ⟨id, userId, status, expiresAt, package, weight, price⟩ := alike
  unfold Order.toChanges
  rw [userId, Tables.toRowId_of_le h.userId, status, expiresAt, package, weight]
  exact ⟨_, rfl, fun r named => ⟨named, rfl, rfl, h.expiresAt.kept, rfl, price, rfl⟩⟩

/-! ## Lists of rows -/

section Lists

variable {α β γ ε : Type}

/-- Items that convert, convert together. -/
theorem mapM_of_forall₂ {f : β → Except ε γ} {R : α → γ → Prop} {as : List α} {bs : List β}
    (h : Forall₂ (fun a b => ∃ c, f b = .ok c ∧ R a c) as bs) : ∃ cs, bs.mapM f = .ok cs ∧ Forall₂ R as cs := by
  induction h with
  | nil => exact ⟨[], rfl, .nil⟩
  | cons head _ ih =>
    obtain ⟨c, converted, related⟩ := head
    obtain ⟨cs, rest, restRelated⟩ := ih
    refine ⟨c :: cs, ?_, .cons related restRelated⟩
    rw [List.mapM_cons, converted, rest]
    rfl

/-- what the ids stand for, beside the rows -/
theorem forall₂_choose {R : α → β → γ → Prop} {as : List α} {bs : List β}
    (h : Forall₂ (fun a b => ∃ c, R a b c) as bs) :
    ∃ cs : List γ, Forall₂ (fun a c => ∃ b, R a b c) as cs ∧ Forall₂ (fun c b => ∃ a, R a b c) cs bs := by
  induction h with
  | nil => exact ⟨[], .nil, .nil⟩
  | cons head _ ih =>
    obtain ⟨c, related⟩ := head
    obtain ⟨cs, left, right⟩ := ih
    exact ⟨c :: cs, .cons ⟨_, related⟩ left, .cons ⟨_, related⟩ right⟩

theorem map_eq_of_forall₂ {f : α → γ} {g : β → γ} {as : List α} {bs : List β}
    (h : Forall₂ (fun a b => f a = g b) as bs) : as.map f = bs.map g := by
  have mapped := List.forall₂_map_left_iff.2 (List.forall₂_map_right_iff.2 h)
  rwa [List.forall₂_eq_eq_eq] at mapped

theorem exists_of_forall₂ {R : α → β → Prop} {as : List α} {bs : List β} (h : Forall₂ R as bs) {a : α} (mem : a ∈ as) :
    ∃ b ∈ bs, R a b := by
  induction h with
  | nil => exact absurd mem List.not_mem_nil
  | cons head _ ih =>
    rcases List.mem_cons.1 mem with rfl | mem
    · exact ⟨_, List.mem_cons_self, head⟩
    · obtain ⟨b, among, related⟩ := ih mem
      exact ⟨b, List.mem_cons_of_mem _ among, related⟩

/-- What stands beside something is among the rows. -/
theorem forall₂_mem {R : α → β → Prop} {as : List α} {bs : List β} (h : Forall₂ R as bs) :
    Forall₂ (fun a b => b ∈ bs ∧ R a b) as bs :=
  ((List.forall₂_and_left _ _).2 ⟨fun _ mem => mem, h.flip⟩).flip

end Lists

theorem toOrder_rows {orders : List Order} {rows : List OrderRow}
    (h : Forall₂ (fun o r => OrderRow.Keeps r o) orders rows) :
    rows.mapM OrderRow.toOrder = .ok (orders.map Order.kept) := by
  have converted : Forall₂ (fun o r => ∃ c, OrderRow.toOrder r = .ok c ∧ Order.kept o = c) orders rows :=
    h.imp fun _ _ keeps => ⟨_, keeps.toOrder, rfl⟩
  obtain ⟨cs, done, same⟩ := mapM_of_forall₂ converted
  have mapped := List.forall₂_map_left_iff.2 same
  rw [List.forall₂_eq_eq_eq] at mapped
  rw [done, mapped]

/-- Rows beside ids are found by them. -/
theorem find?_of_rows {R : Nat → OrderRow → Prop} (named : ∀ id r, R id r → r.id = id) {ids : List Nat}
    {rows : List OrderRow} (h : Forall₂ R ids rows) (id : Nat) :
    (id ∈ ids ∧ ∃ r, rows.find? (·.id = (id : Int)) = some r ∧ R id r) ∨
      (id ∉ ids ∧ rows.find? (·.id = (id : Int)) = none) := by
  induction h with
  | nil => exact .inr ⟨List.not_mem_nil, rfl⟩
  | @cons id' r _ _ head _ ih =>
    by_cases same : id' = id
    · subst same
      refine .inl ⟨List.mem_cons_self, r, ?_, head⟩
      rw [List.find?_cons_of_pos (by simpa using named _ _ head)]
    · have other : r.id ≠ id := fun hr => same (Int.ofNat_inj.1 ((named _ _ head).symm.trans hr))
      rw [List.find?_cons_of_neg (by simpa using other)]
      simpa [Ne.symm same] using ih

/-! ## Order of creation -/

namespace SortKey

variable {a b : SortKey}

theorem isOlder_iff : a.isOlder b = true ↔ a.createdAt < b.createdAt ∨ (a.createdAt = b.createdAt ∧ a.id ≤ b.id) := by
  simp [isOlder]

theorem isOlder_trans (a b c : SortKey) (hab : a.isOlder b = true) (hbc : b.isOlder c = true) : a.isOlder c = true := by
  rw [isOlder_iff] at *
  rcases hab with hab | ⟨hab, hid⟩ <;> rcases hbc with hbc | ⟨hbc, hid'⟩
  · exact .inl (hab.trans hbc)
  · exact .inl (hbc ▸ hab)
  · exact .inl (hab ▸ hbc)
  · exact .inr ⟨hab.trans hbc, Int.le_trans hid hid'⟩

theorem isOlder_total (a b : SortKey) : (a.isOlder b || b.isOlder a) = true := by
  rw [Bool.or_eq_true, isOlder_iff, isOlder_iff]
  rcases lt_trichotomy a.createdAt b.createdAt with earlier | same | later
  · exact .inl (.inl earlier)
  · rcases Int.le_total a.id b.id with h | h
    · exact .inl (.inr ⟨same, h⟩)
    · exact .inr (.inr ⟨same.symm, h⟩)
  · exact .inr (.inl later)

theorem isOlder_antisymm (hab : a.isOlder b = true) (hba : b.isOlder a = true) : a = b := by
  obtain ⟨time, id⟩ := a
  obtain ⟨time', id'⟩ := b
  rw [isOlder_iff] at hab hba
  rcases hab with earlier | ⟨same, le⟩
  · rcases hba with later | ⟨same, -⟩
    · exact absurd (earlier.trans later) (lt_irrefl _)
    · exact absurd same earlier.ne'
  · rcases hba with later | ⟨-, le'⟩
    · exact absurd same later.ne'
    · exact congrArg₂ SortKey.mk same (Int.le_antisymm le le')

/-- Of rows whose times do not fall, and whose ids rise where times are the same, each is older than those after it. -/
theorem isOlder_of_le (time : a.createdAt ≤ b.createdAt) (id : a.createdAt = b.createdAt → a.id ≤ b.id) :
    a.isOlder b = true := by
  rw [isOlder_iff]
  exact time.lt_or_eq.imp_right fun same => ⟨same, id same⟩

variable {α : Type} (key : α → SortKey)

theorem mergeSort_sorted (l : List α) :
    (l.mergeSort fun a b => (key a).isOlder (key b)).Pairwise fun a b => (key a).isOlder (key b) = true :=
  List.pairwise_mergeSort (fun a b c => isOlder_trans (key a) (key b) (key c)) (fun a b => isOlder_total (key a) (key b)) l

/-- Rows of different keys have one order. -/
theorem eq_of_sorted {l l' : List α} (distinct : (l.map key).Nodup) (perm : l.Perm l')
    (sorted : l.Pairwise fun a b => (key a).isOlder (key b) = true)
    (sorted' : l'.Pairwise fun a b => (key a).isOlder (key b) = true) : l = l' :=
  List.Perm.eq_of_pairwise (fun _ _ ha hb hab hba =>
    List.inj_on_of_nodup_map distinct ha (perm.symm.subset hb) (isOlder_antisymm hab hba)) sorted sorted' perm

end SortKey

namespace Tables

variable {rows : List HistoryRow} (h : rows.Pairwise fun a b => a.sortKey.isOlder b.sortKey = true)
include h

theorem byWriting_eq : byWriting rows = rows := List.mergeSort_of_pairwise h

/-- The newest come first when the rows are turned round. -/
theorem byWritingDown_eq (distinct : (rows.map (·.id)).Nodup) : byWritingDown rows = rows.reverse := by
  have keyed : (rows.map HistoryRow.sortKey).Nodup := by
    refine List.Nodup.of_map SortKey.id ?_
    rwa [List.map_map]
  have sorted : (byWritingDown rows).Pairwise fun a b => b.sortKey.isOlder a.sortKey = true :=
    List.pairwise_mergeSort (fun a b c hab hbc => SortKey.isOlder_trans c.sortKey b.sortKey a.sortKey hbc hab)
      (fun a b => SortKey.isOlder_total b.sortKey a.sortKey) rows
  have turned : rows = (byWritingDown rows).reverse :=
    SortKey.eq_of_sorted HistoryRow.sortKey keyed
      ((List.mergeSort_perm rows _).symm.trans (List.reverse_perm _).symm) h (List.pairwise_reverse.2 sorted)
  exact List.reverse_eq_iff.1 turned.symm

end Tables

/-! ## Rows of the history -/

/-- the row notes the entry, and both have times that are told in text -/
structure HistoryRow.Notes (r : HistoryRow) (e : HistoryEntry) : Prop where
  orderId : r.orderId = e.orderId
  status : r.status = e.status.text
  proper : e.createdAt.Proper
  proper' : r.createdAt.Proper

/-- what is told of an order, whenever and in whatever place -/
structure HistoryEntry.Retold (e e' : HistoryEntry) : Prop where
  orderId : e'.orderId = e.orderId
  status : e'.status = e.status
  proper : e.createdAt.Proper
  proper' : e'.createdAt.Proper

theorem HistoryRow.Notes.toEntry {r : HistoryRow} {e : HistoryEntry} (h : r.Notes e) :
    ∃ e', r.toEntry = .ok e' ∧ e.Retold e' := by
  unfold HistoryRow.toEntry
  rw [h.orderId, h.status, ofRowId_natCast, Status.parse_text]
  exact ⟨_, rfl, rfl, rfl, h.proper, h.proper'⟩

theorem toEntry_rows {entries : List HistoryEntry} {rows : List HistoryRow}
    (h : Forall₂ (fun e r => HistoryRow.Notes r e) entries rows) :
    ∃ entries', rows.mapM HistoryRow.toEntry = .ok entries' ∧ Forall₂ HistoryEntry.Retold entries entries' :=
  mapM_of_forall₂ (h.imp fun _ _ notes => notes.toEntry)

end PickupPoint
