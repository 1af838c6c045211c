/-
Listings by page, over the store in memory and over the tables of a database.

The store in memory lists orders by their ids. The tables list them by the times at which their rows were created, that
is, at which the transactions opened that accepted them, and by their ids where these are the same. So both list the same
orders, and count the same, but may put others on a page; where the ids ascend in the order of creation, the pages are the
same. This is so whatever the clock of the database shows (`listings_agree`). They are not otherwise, and if times are not
in whole microseconds or in leap seconds the stores themselves part (`listings_part`).
-/
import PickupPoint.Proofs.Refinement

namespace PickupPoint

open Act LawfulCache

open List (Forall₂)

/-! ## Order of creation -/

namespace Tables

/-- when the row with an id was created -/
def created (t : Tables) (id : Nat) : Instant := ((t.row? id).map (·.createdAt)).getD ⟨0, 0⟩

def keyOf (t : Tables) (id : Nat) : SortKey := ⟨t.created id, id⟩

/-- The ids ascend in the order of creation. -/
def InOrder (t : Tables) (ids : List Nat) : Prop := ∀ a ∈ ids, ∀ b ∈ ids, a < b → (t.keyOf a).isOlder (t.keyOf b) = true

instance (t : Tables) (ids : List Nat) : Decidable (t.InOrder ids) := by
  unfold InOrder
  infer_instance

theorem keyOf_injective (t : Tables) : Function.Injective t.keyOf := fun _ _ same =>
  Int.ofNat_inj.1 (congrArg SortKey.id same)

end Tables

section Creation

variable {ids : List Nat} {m : Memory} {t : Tables} (h : Mirrors ids m t)
include h

/-- A row is found by its id. -/
theorem Mirrors.row?_mem {r : OrderRow} (mem : r ∈ t.orders) : t.row? r.id = some r := by
  rcases hx : t.row? r.id with _ | x
  · simpa using List.find?_eq_none.1 hx r mem
  · have distinct : (t.orders.map (·.id)).Nodup := h.shelf.ids_rows ▸
      h.shelf.once.map (f := fun id : Nat => (id : Int)) fun _ _ same => Int.ofNat_inj.1 same
    have named : x.id = r.id := by simpa using List.find?_some hx
    rw [List.inj_on_of_nodup_map distinct (List.mem_of_find?_eq_some hx) mem named]

theorem Mirrors.keyOf_row {r : OrderRow} (mem : r ∈ t.orders) {id : Nat} (named : r.id = id) :
    t.keyOf id = r.sortKey := by
  unfold Tables.keyOf Tables.created
  rw [← named, h.row?_mem mem]
  rfl

/-- The rows were created in the order in which their orders came, each at a reading of its own. -/
theorem Mirrors.dated : (ids.map t.created).Sublist t.shown := by
  have same : Forall₂ (fun id r => t.created id = r.createdAt) ids t.orders :=
    (forall₂_mem h.shelf.kept).imp fun id r ⟨mem, kept⟩ =>
      congrArg SortKey.createdAt (h.keyOf_row mem (Shelved.keptIn_id kept))
  exact map_eq_of_forall₂ same ▸ h.shelf.created

/-- Where the clock of the database never goes back, ids that ascend as their orders came ascend in the order of
creation. -/
theorem Mirrors.inOrder (forward : Monotone t.reading) {some : List Nat} (among : some.Sublist ids)
    (ascending : some.Pairwise (· < ·)) : t.InOrder some := by
  have times : some.Pairwise (t.created · ≤ t.created ·) :=
    List.pairwise_map.1 ((Tables.shown_ascending forward).sublist ((among.map t.created).trans h.dated))
  intro a ha b hb below
  obtain ⟨i, hi, rfl⟩ := List.mem_iff_getElem.1 ha
  obtain ⟨j, hj, rfl⟩ := List.mem_iff_getElem.1 hb
  -- the smaller id stands before the larger one
  have before : i < j := by
    by_contra late
    rcases Nat.lt_or_eq_of_le (Nat.le_of_not_lt late) with after | rfl
    · exact absurd (below.trans (List.pairwise_iff_getElem.1 ascending j i hj hi after)) (lt_irrefl _)
    · exact absurd below (lt_irrefl _)
  exact SortKey.isOlder_of_le (List.pairwise_iff_getElem.1 times i j hi hj before) fun _ =>
    Int.ofNat_le.2 below.le

/-- All orders as the tables list them. -/
theorem Mirrors.listed : ∃ p : List Order, Tables.listOrders t = (.ok (p.map Order.kept), t) ∧ p.Perm m.orders.rows ∧
    (p.map (·.id)).Perm ids ∧
    (p.map (·.id)).Pairwise fun a b => (t.keyOf a).isOlder (t.keyOf b) = true := by
  have perm : t.byCreation.Perm t.orders := List.mergeSort_perm _ _
  obtain ⟨p, all, named, -, keeps⟩ := h.shelf.listed perm
  refine ⟨p, by rw [Tables.listOrders_ready h.ready, toOrder_rows keeps], all, named, ?_⟩
  have keys : Forall₂ (fun (o : Order) (r : OrderRow) => t.keyOf o.id = r.sortKey) p t.byCreation :=
    (forall₂_mem keeps).imp fun o r ⟨mem, kept⟩ => h.keyOf_row (perm.subset mem) kept.id
  have sorted : (t.byCreation.map OrderRow.sortKey).Pairwise fun a b => a.isOlder b = true :=
    List.pairwise_map.2 (SortKey.mergeSort_sorted OrderRow.sortKey t.orders)
  rw [← map_eq_of_forall₂ keys] at sorted
  exact List.pairwise_map.2 (List.pairwise_map.1 sorted)

end Creation

/-! ## Ids on a page -/

/-- the ids of the stored orders that are asked for, in the order in which their parcels were accepted -/
def Memory.idsWhere (m : Memory) (asked : Order → Bool) : List Nat :=
  m.arrivals.filter fun id => (m.orders.find? id).any asked

theorem sorted_ids (ids : List Nat) : (ids.mergeSort (· ≤ ·)).Pairwise (· ≤ ·) :=
  (List.pairwise_mergeSort (fun a b c hab hbc => by simp only [decide_eq_true_eq] at *; omega)
    (fun a b => by simp only [Bool.or_eq_true, decide_eq_true_eq]; omega) ids).imp of_decide_eq_true

/-- Orders that are asked for have the same ids on both sides. -/
theorem ids_of_perm {m : Memory} {p : List Order} (perm : p.Perm m.orders.rows) (named : (p.map (·.id)).Perm m.arrivals)
    (asked : Order → Bool) : ((p.filter asked).map (·.id)).Perm (m.idsWhere asked) := by
  have chosen : (p.filter asked).map (·.id) = (p.map (·.id)).filter fun id => (m.orders.find? id).any asked := by
    rw [List.filter_map]
    congr 1
    refine List.filter_congr fun o ho => ?_
    have found : m.orders.find? o.id = some o := OrderTable.mem_rows_iff.1 (perm.subset ho)
    simp [found]
  exact chosen ▸ named.filter _

theorem pageOf_map {α β : Type} (f : α → β) (items : List α) (page limit : Nat) :
    (pageOf items page limit).map f = pageOf (items.map f) page limit := by
  rw [pageOf, pageOf, List.map_take, List.map_drop]

theorem lastOf_map {α β : Type} (f : α → β) (items : List α) (n : Nat) :
    (lastOf items n).map f = lastOf (items.map f) n := by
  unfold lastOf
  split_ifs
  · rfl
  · rw [List.map_drop, List.length_map]

/-- Two pages that are cut from the same ids: from the ids ascending, and from the ids in the order of creation. -/
structure CutAlike (t : Tables) (ids : List Nat) (cut : List Nat → List Nat) (page page' : List Order) : Prop where
  byId : page.map (·.id) = cut (ids.mergeSort (· ≤ ·))
  byCreation : page'.map (·.id) = cut (ids.mergeSort fun a b => (t.keyOf a).isOlder (t.keyOf b))
  same : t.InOrder ids → page'.map (·.id) = page.map (·.id)

theorem CutAlike.of_eq {t : Tables} {ids : List Nat} (once : ids.Nodup) {cut : List Nat → List Nat}
    {page page' : List Order} (byId : page.map (·.id) = cut (ids.mergeSort (· ≤ ·)))
    (byCreation : page'.map (·.id) = cut (ids.mergeSort fun a b => (t.keyOf a).isOlder (t.keyOf b))) :
    CutAlike t ids cut page page' := by
  refine ⟨byId, byCreation, fun inOrder => ?_⟩
  rw [byId, byCreation]
  refine congrArg cut (SortKey.eq_of_sorted t.keyOf ?_ ?_ (SortKey.mergeSort_sorted t.keyOf ids) ?_)
  · exact ((List.mergeSort_perm ids _).nodup_iff.2 once).map t.keyOf_injective
  · exact (List.mergeSort_perm ids _).trans (List.mergeSort_perm ids _).symm
  · refine (sorted_ids ids).imp_of_mem fun {a b} ha hb le => ?_
    rcases Nat.lt_or_eq_of_le le with below | rfl
    · exact inOrder a (List.mem_mergeSort.1 ha) b (List.mem_mergeSort.1 hb) below
    · exact SortKey.isOlder_of_le le_rfl fun _ => le_rfl

/-! ## Asking for all orders -/

section Asking

variable {σ κ : Type} {s : Site σ κ} (faults : Fault.OfCache s.faults)
include faults

/-- A call that reads leaves everything as it is, if no fault of the store is set. -/
theorem read_run {α : Type} {p : Point} (hp : ¬ p.IsOfCache) {op : Access σ α} {a : α}
    (read : op s.store = (.ok a, s.store)) : reachedAt p (onStore fun _ => op) s = (.ok a, s) := by
  unfold reachedAt
  rw [bind_run, Near.arrive hp false faults]
  dsimp only
  rw [bind_run, onStore_run, read]
  dsimp only [Except.mapError]
  rw [bind_run, Near.arrive hp true faults]
  rfl

variable [OrderStore σ] {orders : List Order} (read : OrderStore.orders s.store = (.ok orders, s.store))
include read

theorem storedOrders_run : storedOrders s = (.ok orders, s) := read_run faults (by decide) read

theorem listOrders_run {limit : Nat} (positive : 0 < limit) (userId : Nat) (inPickupPoint : Bool) (last page : Nat) :
    listOrders userId inPickupPoint last page limit s =
      (.ok (listing userId inPickupPoint last page limit orders), s) := by
  unfold listOrders
  rw [if_neg positive.ne']
  show (counted storedOrders >>= fun orders => pure (listing userId inPickupPoint last page limit orders) :
    Act σ κ (List Order × Nat)) s = _
  rw [bind_run, counted_run, storedOrders_run faults read]
  rfl

theorem listReturns_run (page limit : Nat) : listReturns page limit s = (.ok (returnsListing page limit orders), s) := by
  show (counted storedOrders >>= fun orders => pure (returnsListing page limit orders) : Act σ κ (List Order)) s = _
  rw [bind_run, counted_run, storedOrders_run faults read]
  rfl

end Asking

/-! ## Listings -/

variable {κ ν : Type} [HistoryCache κ] [HistoryCache ν] [LawfulCache κ] [LawfulCache ν]

/-- what a listing asks for -/
def asksFor (userId : Nat) (inPickupPoint : Bool) (o : Order) : Bool :=
  o.userId = userId && (!inPickupPoint || o.status.isInPickupPoint)

def isReturned (o : Order) : Bool := o.status = .returned

/-- What both stores list: of the orders that are asked for, as many, and pages that are cut from the ids ascending and
from the ids in the order of creation. -/
structure ListAlike (s : Site Memory κ) (s' : Site Tables ν) (limit : Nat) : Prop where
  /-- rows were created in the order in which their orders came, each at a reading of its own -/
  dated : (s.store.arrivals.map s'.store.created).Sublist s'.store.shown
  /-- so if the clock of the database never goes back, ids that ascend as their orders came ascend as they were created -/
  inOrder : Monotone s'.store.reading → ∀ ids, ids.Sublist s.store.arrivals → ids.Pairwise (· < ·) → s'.store.InOrder ids
  orders : ∀ userId inPickupPoint last page, ∃ l l' ids total,
    ids = s.store.idsWhere (asksFor userId inPickupPoint) ∧ total = ids.length % bitLimit countBits ∧
      (listOrders userId inPickupPoint last page limit s).1 = .ok (l, total) ∧
      (listOrders userId inPickupPoint last page limit s').1 = .ok (l', total) ∧
      CutAlike s'.store ids (fun ids => pageOf (lastOf ids last) page limit) l l'
  returns : ∀ page, ∃ l l', (listReturns page limit s).1 = .ok l ∧ (listReturns page limit s').1 = .ok l' ∧
    CutAlike s'.store (s.store.idsWhere isReturned) (fun ids => pageOf ids page limit) l l'

/-- The ids of what is asked for, as either store lists them. -/
theorem Mirrors.chosen {m : Memory} {t : Tables} (h : Mirrors m.arrivals m t) :
    ∃ l', Tables.listOrders t = (.ok l', t) ∧ ∀ asked : Order → Bool, (∀ o : Order, asked o.kept = asked o) →
      (m.idsWhere asked).Nodup ∧
      (m.orders.rows.filter asked).map (·.id) = (m.idsWhere asked).mergeSort (· ≤ ·) ∧
      (l'.filter asked).map (·.id) = (m.idsWhere asked).mergeSort fun a b => (t.keyOf a).isOlder (t.keyOf b) := by
  obtain ⟨p, read, perm, named, sorted⟩ := h.listed
  refine ⟨p.map Order.kept, read, fun asked priceless => ?_⟩
  have once : (m.idsWhere asked).Nodup := h.shelf.once.filter _
  have ids := ids_of_perm perm named asked
  refine ⟨once, ?_, ?_⟩
  · have rows : ((m.orders.rows.filter asked).map (·.id)).Pairwise (· ≤ ·) :=
      List.pairwise_map.2 ((m.orders.ascending.filter _).imp le_of_lt)
    refine List.Perm.eq_of_pairwise (fun _ _ _ _ => Nat.le_antisymm) rows (sorted_ids _) ?_
    exact (((perm.symm.filter asked).map _).trans ids).trans (List.mergeSort_perm _ _).symm
  · have chosen : ((p.map Order.kept).filter asked).map (·.id) = (p.filter asked).map (·.id) := by
      rw [List.filter_map, List.map_map, show asked ∘ Order.kept = asked from funext priceless]
      rfl
    rw [chosen]
    refine SortKey.eq_of_sorted t.keyOf ((ids.nodup_iff.2 once).map t.keyOf_injective)
      (ids.trans (List.mergeSort_perm _ _).symm) ?_ (SortKey.mergeSort_sorted t.keyOf _)
    exact List.pairwise_map.2 ((List.pairwise_map.1 sorted).filter asked)

theorem Abreast.list {forward : Prop} {s : Site Memory κ} {s' : Site Tables ν} (h : Abreast forward [] s s')
    {limit : Nat} (positive : 0 < limit) : ListAlike s s' limit := by
  have mirrors : Mirrors s.store.arrivals s.store s'.store := h.near.stores.1
  obtain ⟨l', read', chosen⟩ := mirrors.chosen
  have read : OrderStore.orders s.store = (.ok s.store.orders.rows, s.store) := rfl
  refine ⟨mirrors.dated, fun ahead _ among ascending => mirrors.inOrder ahead among ascending, ?_, ?_⟩
  · intro userId inPickupPoint last page
    obtain ⟨once, byId, byCreation⟩ := chosen (asksFor userId inPickupPoint) fun _ => rfl
    have count : (s.store.orders.rows.filter (asksFor userId inPickupPoint)).length =
        (s.store.idsWhere (asksFor userId inPickupPoint)).length := by
      rw [← List.length_map (f := Order.id), byId, List.length_mergeSort]
    have count' : (l'.filter (asksFor userId inPickupPoint)).length =
        (s.store.idsWhere (asksFor userId inPickupPoint)).length := by
      rw [← List.length_map (f := Order.id), byCreation, List.length_mergeSort]
    refine ⟨(listing userId inPickupPoint last page limit s.store.orders.rows).1,
      (listing userId inPickupPoint last page limit l').1, _, _, rfl, rfl, ?_, ?_, .of_eq once ?_ ?_⟩
    · rw [listOrders_run h.near.faults read positive, ← count]
      rfl
    · rw [listOrders_run h.near.faults' read' positive, ← count']
      rfl
    · exact (pageOf_map ..).trans (by rw [lastOf_map, ← byId]; rfl)
    · exact (pageOf_map ..).trans (by rw [lastOf_map, ← byCreation]; rfl)
  · intro page
    obtain ⟨once, byId, byCreation⟩ := chosen isReturned fun _ => rfl
    have cut : ∀ orders, returnsListing page limit orders = pageOf (orders.filter isReturned) page limit :=
      fun _ => if_neg positive.ne'
    refine ⟨_, _, congrArg Prod.fst (listReturns_run h.near.faults read ..),
      congrArg Prod.fst (listReturns_run h.near.faults' read' ..), .of_eq once ?_ ?_⟩
    · rw [cut, pageOf_map, byId]
    · rw [cut, pageOf_map, byCreation]

/-- **Listings.** In every session that begins with nothing, whatever the clock of the database shows, both stores list the
same orders, and count the same. The store in memory cuts its pages from the ids ascending, and the tables from the ids in
the order of creation, which goes by the times at which the orders were accepted, and by the ids where these are the same.
So the pages are the same wherever the ids ascend in the order of creation. -/
theorem listings_agree {s : Site Memory κ} {s' : Site Tables ν} (opens : Opens s s') {turns : List Turn}
    (suits : ∀ c, .call c ∈ turns → c.Suits) {limit : Nat} (positive : 0 < limit) :
    ListAlike (Turn.run s turns) (Turn.run s' turns) limit :=
  ((abreast_careful False).run (fun c hc => (suits c hc).allowed) (opens.abreast False.elim)).list positive

/-- The heavier parcel came first, though its id is larger. Where the clock of the database stands still, both rows are of
one time, and the pages are the same. -/
theorem listings_agree_on_box :
    ListAlike (Turn.run (opening TimedCache.empty) boxFirst)
        (Turn.run (openingTables .still CacheServer.empty) boxFirst) 10 ∧
      (Turn.run (opening TimedCache.empty) boxFirst).store.idsWhere (asksFor 7 false) = [2, 1] ∧
      (Turn.run (openingTables .still CacheServer.empty) boxFirst).store.InOrder [2, 1] :=
  ⟨listings_agree (opening_opens .still) boxFirst_suits (by decide), by decide +kernel, by decide +kernel⟩

/-! ## Where listings part -/

/-- a clock that moves on by half a minute with every reading -/
def slowClock : Clock := ⟨fun n => ⟨Instant.millennium + 30 * n, 0⟩, 0⟩

/-- a clock that goes back by half a minute with every reading -/
def backwardClock : Clock := ⟨fun n => ⟨Instant.millennium - 30 * n, 0⟩, 0⟩

/-- a clock that shows times between microseconds, and two days later an earlier one -/
def fineClock : Clock :=
  ⟨fun n => if n ≤ 3 then ⟨Instant.millennium + n, 500⟩ else ⟨Instant.millennium + 172802, 200⟩, 0⟩

/-- a parcel without packing, at a deadline so many seconds after the millennium -/
def parcelUntil (seconds : Int) (nano : Nat) : Acceptance :=
  { lightParcel with expiresAt := ⟨Instant.millennium + seconds, nano⟩ }

/-- the order of such a parcel, as the tables keep it -/
def keptParcel (id : Nat) (status : Status) (seconds : Int) : Order :=
  ⟨id, 7, status, ⟨Instant.millennium + seconds, 0⟩, .bare, 1, ⟨1000, 2⟩⟩

/-- The larger id comes first. -/
def largerFirst : List Turn :=
  [.call (.accept { parcelUntil 3600 0 with orderId := 2 }), .call (.accept (parcelUntil 3600 0))]

/-- The smaller id comes first. -/
def smallerFirst : List Turn :=
  [.call (.accept (parcelUntil 3600 0)), .call (.accept { parcelUntil 3600 0 with orderId := 2 })]

/-- The courier comes just before the deadline, if it is kept as it is. -/
def finelyTimed : List Turn := [.call (.accept (parcelUntil 60 500)), .call (.reclaim 1)]

/-- The deadline is a leap second, and the client comes in the second after it. -/
def leapTimed : List Turn := [.call (.accept (parcelUntil 59 1000000000)), .call (.process 7 .issue [1])]

/-- The client brings the parcel back just before the deadline, if it is kept as it is. -/
def broughtBack : List Turn :=
  [.call (.accept (parcelUntil 3600 0)), .call (.process 7 .issue [1]), .call (.process 7 .takeBack [1])]

/-- the ids on the first page of client 7 -/
def pageIds {σ κ : Type} [OrderStore σ] (s : Site σ κ) (inPickupPoint : Bool) : Option (List Nat) :=
  (listOrders 7 inPickupPoint 0 0 10 s).1.toOption.map fun x => x.1.map (·.id)

def shownInMemory (clock : Clock) (turns : List Turn) : Bool → Option (List Nat) :=
  pageIds (Turn.run { opening TimedCache.empty with clock := clock } turns)

/-- what the tables of a database show whose clock is the second one -/
def shownByTables (clock clock' : Clock) (turns : List Turn) : Bool → Option (List Nat) :=
  pageIds (Turn.run { openingTables clock' CacheServer.empty with clock := clock } turns)

/-- What tables show of rows that are read in the order of their creation. -/
theorem pageIds_tables {κ : Type} {s : Site Tables κ} {inPickupPoint : Bool} {rows : List OrderRow} (orders : List Order)
    (perm : rows.Perm s.store.orders)
    (calm : s.faults = [] ∧ s.store.faults = [] ∧ s.store.exists? = true ∧ s.store.aborted = false)
    (sorted : rows.Pairwise fun a b => a.sortKey.isOlder b.sortKey = true ∧ a.sortKey ≠ b.sortKey)
    (converted : (rows.mapM OrderRow.toOrder).toOption = some orders) :
    pageIds s inPickupPoint = some (((orders.filter (asksFor 7 inPickupPoint)).take 10).map (·.id)) := by
  obtain ⟨faultless, faults, created, sane⟩ := calm
  have inOrder : rows = s.store.byCreation :=
    SortKey.eq_of_sorted OrderRow.sortKey (List.pairwise_map.2 (sorted.imp And.right))
      (perm.trans (List.mergeSort_perm _ _).symm) (sorted.imp And.left) (SortKey.mergeSort_sorted OrderRow.sortKey _)
  have read : OrderStore.orders s.store = (.ok orders, s.store) := by
    show Tables.listOrders s.store = _
    rw [Tables.listOrders_ready ⟨faults, created, sane⟩, ← inOrder]
    rcases hr : rows.mapM OrderRow.toOrder with _ | converts <;> rw [hr] at converted
    · cases converted
    · cases converted
      rfl
  have calm : Fault.OfCache s.faults := .of_nil faultless
  unfold pageIds
  rw [listOrders_run calm read (by decide)]
  rfl

/-- Ids that do not ascend as their orders came are listed in another order, and so are ids that do, where the clock of
the database goes back between them. Times that a column does not keep let the stores part: a deadline that is not in
whole microseconds, one in a leap second, or readings of the clock that are not in whole microseconds. -/
theorem listings_part :
    (shownInMemory slowClock largerFirst false = some [1, 2] ∧
        shownByTables slowClock slowClock largerFirst false = some [2, 1]) ∧
      (shownInMemory slowClock smallerFirst false = some [1, 2] ∧
        shownByTables slowClock backwardClock smallerFirst false = some [2, 1]) ∧
      (shownInMemory slowClock finelyTimed false = some [1] ∧
        shownByTables slowClock slowClock finelyTimed false = some []) ∧
      (shownInMemory slowClock leapTimed true = some [1] ∧ shownByTables slowClock slowClock leapTimed true = some []) ∧
      (shownInMemory fineClock broughtBack true = some [1] ∧
        shownByTables fineClock fineClock broughtBack true = some []) := by
  refine ⟨⟨by decide +kernel, ?_⟩, ⟨by decide +kernel, ?_⟩, ⟨by decide +kernel, ?_⟩, ⟨by decide +kernel, ?_⟩,
    ⟨by decide +kernel, ?_⟩⟩
  · refine (pageIds_tables [keptParcel 2 .expects 3600, keptParcel 1 .expects 3600] (.refl _) ?_ ?_ ?_).trans ?_
    all_goals decide +kernel
  · refine (pageIds_tables [keptParcel 2 .expects 3600, keptParcel 1 .expects 3600] (List.reverse_perm _) ?_ ?_ ?_).trans ?_
    all_goals decide +kernel
  · refine (pageIds_tables [] (.refl _) ?_ ?_ ?_).trans ?_
    all_goals decide +kernel
  · refine (pageIds_tables [keptParcel 1 .accepted 172860] (.refl _) ?_ ?_ ?_).trans ?_
    all_goals decide +kernel
  · refine (pageIds_tables [keptParcel 1 .accepted 172802] (.refl _) ?_ ?_ ?_).trans ?_
    all_goals decide +kernel

end PickupPoint
