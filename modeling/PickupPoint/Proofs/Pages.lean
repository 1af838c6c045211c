/-
What pages by number make up.

A page is the part of a list that starts at so many pages. So the pages from the first one on give the list piece by
piece, all of them full but the last, and none comes after it (`pageOf_tiles`). The orders of a user, the returned orders
and the history are cut into pages so (`pages_tile`). They differ in what they cut, and in what a page of no entries is
taken for: the returned orders come all at once then, and the history by the usual count.
-/
import PickupPoint.Proofs.Listing

namespace PickupPoint

open Act

/-! ## Pages of a list -/

section Items

variable {α : Type} {limit : Nat}

/-- Pages by number make up a list: the first `count` of them show something, each but the last as much as a page may,
and all others nothing. -/
structure Tiles (page : Nat → List α) (limit count : Nat) (items : List α) : Prop where
  joined : (List.range count).flatMap page = items
  shown : ∀ p < count, page p ≠ []
  beyond : ∀ p, count ≤ p → page p = []
  short : ∀ p, (page p).length ≤ limit
  full : ∀ p, p + 1 < count → (page p).length = limit

theorem length_pageOf (items : List α) (p limit : Nat) :
    (pageOf items p limit).length = min limit (items.length - p * limit) := by
  rw [pageOf, List.length_take, List.length_drop]

/-- The first pages are what they start before. -/
theorem flatMap_pageOf (items : List α) (limit count : Nat) :
    (List.range count).flatMap (pageOf items · limit) = items.take (count * limit) := by
  induction count with
  | zero => simp
  | succ count ih =>
    rw [List.range_succ, List.flatMap_append, ih, Nat.succ_mul, List.take_add, List.flatMap_singleton]
    rfl

/-- so many pages start before the end of a list -/
theorem exists_count (positive : 0 < limit) (n : Nat) : ∃ count, ∀ p, p < count ↔ p * limit < n := by
  refine ⟨(n + limit - 1) / limit, fun p => ?_⟩
  rw [Nat.lt_iff_add_one_le, Nat.le_div_iff_mul_le positive, Nat.succ_mul]
  omega

/-- **Pages make up the list that they are cut from.** -/
theorem pageOf_tiles (positive : 0 < limit) (items : List α) :
    ∃ count ≤ items.length, Tiles (pageOf items · limit) limit count items := by
  obtain ⟨count, starts⟩ := exists_count positive items.length
  have ended : items.length ≤ count * limit := Nat.not_lt.1 fun h => Nat.lt_irrefl count ((starts count).2 h)
  refine ⟨count, ?_, ?_, fun p hp => ?_, fun p hp => ?_, fun p => ?_, fun p hp => ?_⟩
  · refine Nat.not_lt.1 fun h => ?_
    have begun := (starts items.length).1 h
    exact Nat.not_lt.2 (Nat.le_mul_of_pos_right _ positive) begun
  · rw [flatMap_pageOf, List.take_of_length_le ended]
  · have begun := (starts p).1 hp
    rw [← List.length_pos_iff, length_pageOf]
    omega
  · have begun := mt (starts p).2 (Nat.not_lt.2 hp)
    rw [← List.length_eq_zero_iff, length_pageOf]
    omega
  · rw [length_pageOf]
    exact Nat.min_le_left ..
  · have next := (starts (p + 1)).1 hp
    rw [Nat.succ_mul] at next
    rw [length_pageOf]
    omega

/-- the last so many of a list, or all of them for zero -/
structure IsLast (n : Nat) (items all : List α) : Prop where
  suffix : items <:+ all
  length : items.length = if n = 0 then all.length else min n all.length

theorem lastOf_isLast (n : Nat) (all : List α) : IsLast n (lastOf all n) all := by
  unfold lastOf
  by_cases h : n = 0
  · rw [if_pos h]
    exact ⟨List.suffix_rfl, (if_pos h).symm⟩
  · rw [if_neg h]
    refine ⟨List.drop_suffix _ _, ?_⟩
    rw [if_neg h, List.length_drop]
    omega

end Items

/-! ## Pages of a store -/

/-- the orders that are asked for, each once and by ascending ids -/
structure Memory.Lists (m : Memory) (asked : Order → Prop) (orders : List Order) : Prop where
  ascending : orders.Pairwise (·.id < ·.id)
  mem_iff : ∀ o, o ∈ orders ↔ m.orders.find? o.id = some o ∧ asked o

theorem Memory.lists_filter (m : Memory) {asked : Order → Prop} {test : Order → Bool}
    (decides : ∀ o, test o = true ↔ asked o) : m.Lists asked (m.orders.rows.filter test) :=
  ⟨m.orders.ascending.filter _, fun o => by rw [List.mem_filter, OrderTable.mem_rows_iff, decides]⟩

theorem asksFor_iff {userId : Nat} {inPickupPoint : Bool} {o : Order} : asksFor userId inPickupPoint o = true ↔
    o.userId = userId ∧ (inPickupPoint = true → o.status.isInPickupPoint = true) := by
  cases inPickupPoint <;> simp [asksFor]

theorem Memory.Lists.eq {m : Memory} {asked : Order → Prop} {orders orders' : List Order} (h : m.Lists asked orders)
    (h' : m.Lists asked orders') : orders = orders' :=
  eq_of_ascending h.ascending h'.ascending fun o => by rw [h.mem_iff, h'.mem_iff]

/-- Asked for one page after the other, a site stays as it is, and the pages that it answers with make up a list. Their
numbers have 32 bits, that of the page which is the first to show nothing included. -/
def Paged {α β κ : Type} (s : Site Memory κ) (ask : Nat → Act Memory κ β) (answer : List α → β) (limit : Nat)
    (items : List α) : Prop :=
  ∃ page count, count < bitLimit 32 ∧ Tiles page limit count items ∧ ∀ p, ask p s = (.ok (answer (page p)), s)

variable {κ : Type} {s : Site Memory κ}

theorem Paged.of_pageOf {α β : Type} {ask : Nat → Act Memory κ β} {answer : List α → β} {limit : Nat} {items : List α}
    (positive : 0 < limit) (few : items.length < bitLimit 32)
    (answered : ∀ p, ask p s = (.ok (answer (pageOf items p limit)), s)) : Paged s ask answer limit items := by
  obtain ⟨count, le, tiles⟩ := pageOf_tiles positive items
  exact ⟨_, count, Nat.lt_of_le_of_lt le few, tiles, answered⟩

section Queries

variable (faults : Fault.OfCache s.faults)
include faults

theorem historyPage_run (page count : Nat) :
    historyPage page count s = (.ok (pageOf s.store.history.reverse page (OrderStore.pageCount count)), s) := by
  have read : storedHistory page count s = (.ok (pageOf s.store.history.reverse page (OrderStore.pageCount count)), s) :=
    read_run faults (by decide) rfl
  rw [historyPage, counted_run, read]

theorem listOrders_paged {userId : Nat} {inPickupPoint : Bool} {all : List Order}
    (lists : s.store.orders.rows.filter (asksFor userId inPickupPoint) = all) (few : all.length < bitLimit 32)
    (last : Nat) {limit : Nat} (positive : 0 < limit) :
    ∃ items, IsLast last items all ∧ Paged s (listOrders userId inPickupPoint last · limit) (·, all.length) limit items := by
  have tail := lastOf_isLast last all
  have total : all.length % bitLimit countBits = all.length := Nat.mod_eq_of_lt few
  refine ⟨_, tail, .of_pageOf positive (Nat.lt_of_le_of_lt tail.suffix.length_le few) fun p => ?_⟩
  rw [listOrders_run faults rfl positive, listing]
  show (Except.ok (pageOf (lastOf (s.store.orders.rows.filter (asksFor userId inPickupPoint)) last) p limit,
    (s.store.orders.rows.filter (asksFor userId inPickupPoint)).length % bitLimit countBits), s) = _
  rw [lists, total]

/-- **Pages make up what is asked for.** For every store in memory of which no fault is set: the pages of the orders of a
user make up the last so many of those that are asked for, and each says how many there are in all; the pages of the
returned orders make up all of these, and a limit of zero gives them at once; and the pages of the history make it up
from its end, a count of zero being one of 50. -/
theorem pages_tile :
    (∀ (userId : Nat) (inPickupPoint : Bool), ∃ all,
        s.store.Lists (fun o => o.userId = userId ∧ (inPickupPoint = true → o.status.isInPickupPoint = true)) all ∧
        (all.length < bitLimit 32 → ∀ last limit, 0 < limit → ∃ items, IsLast last items all ∧
          Paged s (listOrders userId inPickupPoint last · limit) (·, all.length) limit items)) ∧
      (∃ returned, s.store.Lists (·.status = .returned) returned ∧
        (returned.length < bitLimit 32 → ∀ limit, 0 < limit → Paged s (listReturns · limit) id limit returned) ∧
        ∀ page, listReturns page 0 s = (.ok returned, s)) ∧
      (s.store.history.length < bitLimit 32 → ∀ count,
        Paged s (historyPage · count) id (if count = 0 then 50 else count) s.store.history.reverse) ∧
      ∀ page, historyPage page 0 s = historyPage page 50 s := by
  refine ⟨fun userId inPickupPoint => ?_, ?_, fun few count => ?_, fun page => rfl⟩
  · exact ⟨_, s.store.lists_filter fun _ => asksFor_iff,
      fun few last limit positive => listOrders_paged faults rfl few last positive⟩
  · have decides : ∀ o : Order, isReturned o = true ↔ o.status = .returned := fun o => by simp [isReturned]
    refine ⟨_, s.store.lists_filter decides,
      fun few limit positive => .of_pageOf positive few fun p => ?_, fun page => ?_⟩
    · rw [listReturns_run faults rfl, returnsListing, if_neg positive.ne']
      rfl
    · rw [listReturns_run faults rfl]
      rfl
  · have positive : 0 < OrderStore.pageCount count := by
      unfold OrderStore.pageCount OrderStore.defaultCount
      split_ifs <;> omega
    exact .of_pageOf positive (by simpa using few) fun p => historyPage_run faults p count

end Queries

/-- three parcels of client 7 on the shelf, the last of which came first -/
def longShelf : Site Memory TimedCache :=
  let parcel (id : Nat) : Order := ⟨id, 7, .expects, ⟨60, 0⟩, .box, 1, .ofNat 20⟩
  { opening TimedCache.empty with store := ((Memory.empty.seed (parcel 3)).seed (parcel 1)).seed (parcel 2) }

/-- Its last two parcels make up pages of one. -/
theorem pages_tile_on_long_shelf :
    Fault.OfCache longShelf.faults ∧
      ∃ all items : List Order, all.map (·.id) = [1, 2, 3] ∧ items.map (·.id) = [2, 3] ∧
        Paged longShelf (listOrders 7 true 2 · 1) (·, all.length) 1 items := by
  have faults : Fault.OfCache longShelf.faults := .of_nil rfl
  obtain ⟨all, lists, tile⟩ := (pages_tile faults).1 7 true
  obtain rfl : all = longShelf.store.orders.rows.filter (asksFor 7 true) :=
    lists.eq (Memory.lists_filter _ fun _ => asksFor_iff)
  obtain ⟨items, last, paged⟩ := tile (by decide +kernel) 2 1 (by decide)
  have tail := List.suffix_iff_eq_drop.1 last.suffix
  rw [last.length] at tail
  refine ⟨faults, _, items, by decide +kernel, ?_, paged⟩
  rw [tail]
  decide +kernel

end PickupPoint
