/-
Walks through the orders of a user, page by page, while calls change the store in memory in between.

A page starts above the cursor that it was asked with, and skips nothing up to the cursor that comes with it
(`scrollFrom_after`). So whatever becomes of the store between two pages, the order that the last cursor points at
included, the ids that a walk gets ascend, and none is passed over that was the user's whenever a page was read
(`walk_in_order`).

An id of zero would be a cursor that starts again, so no stored order has it.
-/
import PickupPoint.Proofs.Calls

namespace PickupPoint

open Act

/-! ## What comes after a cursor -/

section After

variable {α : Type} {key : α → Nat} {items : List α}

theorem dropWhile_ascending (ascending : items.Pairwise (key · < key ·)) (cursor : Nat) :
    items.dropWhile (key · ≤ cursor) = items.filter (cursor < key ·) := by
  induction ascending with
  | nil => rfl
  | @cons x rest below _ ih =>
    by_cases passed : key x ≤ cursor
    · rw [List.dropWhile_cons_of_pos (by simpa using passed), List.filter_cons_of_neg (by simpa using passed), ih]
    · have all : ∀ y ∈ rest, decide (cursor < key y) = true := fun y hy =>
        decide_eq_true ((Nat.lt_of_not_le passed).trans (below y hy))
      rw [List.dropWhile_cons_of_neg (by simpa using passed), List.filter_cons_of_pos (by simpa using passed),
        List.filter_eq_self.2 all]

/-- Items that come after a cursor, with the next cursor: none is skipped that is not beyond the next cursor, or for a
next cursor of zero none at all. -/
structure PageAfter (key : α → Nat) (items : List α) (cursor : Nat) (page : List α) (next : Nat) : Prop where
  part : page.Sublist items
  above : ∀ x ∈ page, cursor < key x
  upTo : ∀ x ∈ page, key x ≤ next
  onward : page ≠ [] → cursor < next
  ended : page = [] → next = 0
  whole : ∀ x ∈ items, cursor < key x → next = 0 ∨ key x ≤ next → x ∈ page

/-- the page is cut from all that is above the cursor -/
theorem scrollFrom_ascending (ascending : items.Pairwise (key · < key ·)) (nonzero : ∀ x ∈ items, key x ≠ 0)
    (cursor limit : Nat) :
    scrollFrom key items cursor limit = ((items.filter (cursor < key ·)).take limit,
      (((items.filter (cursor < key ·)).take limit).getLast?.map key).getD 0) := by
  have rest : (if cursor = 0 then items else items.dropWhile (key · ≤ cursor)) = items.filter (cursor < key ·) := by
    split_ifs with start
    · refine (List.filter_eq_self.2 fun x hx => decide_eq_true ?_).symm
      rw [start]
      exact Nat.pos_of_ne_zero (nonzero x hx)
    · exact dropWhile_ascending ascending cursor
  unfold scrollFrom
  rw [rest]

/-- Of ascending items the first ones are those up to the last of them. -/
theorem mem_take_ascending (ascending : items.Pairwise (key · < key ·)) {n : Nat} {first : List α} {last : α}
    (page : items.take n = first ++ [last]) {x : α} (hx : x ∈ items) : x ∈ items.take n ↔ key x ≤ key last := by
  rw [← List.take_append_drop n items, page] at ascending hx
  rw [page]
  obtain ⟨ofPage, -, later⟩ := List.pairwise_append.1 ascending
  constructor
  · intro hx
    rcases List.mem_append.1 hx with hx | hx
    · exact ((List.pairwise_append.1 ofPage).2.2 x hx last (by simp)).le
    · rw [List.mem_singleton.1 hx]
  · intro reached
    exact (List.mem_append.1 hx).resolve_right fun left => Nat.not_lt.2 reached (later last (by simp) x left)

theorem scrollFrom_after (ascending : items.Pairwise (key · < key ·)) (nonzero : ∀ x ∈ items, key x ≠ 0) {limit : Nat}
    (positive : 0 < limit) (cursor : Nat) :
    PageAfter key items cursor (scrollFrom key items cursor limit).1 (scrollFrom key items cursor limit).2 := by
  rw [scrollFrom_ascending ascending nonzero]
  dsimp only
  have member : ∀ x, x ∈ items.filter (cursor < key ·) ↔ x ∈ items ∧ cursor < key x := fun x => by
    rw [List.mem_filter, decide_eq_true_eq]
  rcases hlast : ((items.filter (cursor < key ·)).take limit).getLast? with _ | last
  · have none : (items.filter (cursor < key ·)).take limit = [] := List.getLast?_eq_none_iff.1 hlast
    have nothing : items.filter (cursor < key ·) = [] := (List.take_eq_nil_iff.1 none).resolve_left positive.ne'
    rw [nothing] at member ⊢
    refine ⟨by simp, by simp, by simp, by simp, fun _ => rfl, fun x hx beyond _ => ?_⟩
    simpa using (member x).2 ⟨hx, beyond⟩
  · obtain ⟨first, page⟩ := List.getLast?_eq_some_iff.1 hlast
    have upTo := fun {x} => mem_take_ascending (x := x) (ascending.filter (cursor < key ·)) page
    have above : ∀ x ∈ (items.filter (cursor < key ·)).take limit, cursor < key x := fun x hx =>
      ((member x).1 (List.mem_of_mem_take hx)).2
    have beyond : cursor < key last := above last (by simp [page])
    refine ⟨(List.take_sublist ..).trans List.filter_sublist, above, fun x hx => ?_, fun _ => beyond, fun none => ?_,
      fun x hx further reached => ?_⟩
    · exact (upTo (List.mem_of_mem_take hx)).1 hx
    · simp [none] at page
    · exact (upTo ((member x).2 ⟨hx, further⟩)).2 (reached.resolve_left (Nat.ne_zero_of_lt beyond))

end After

/-! ## Pages of a user -/

variable {κ : Type}

def Memory.ordersOf (m : Memory) (userId : Nat) : List Order := m.orders.rows.filter (·.userId = userId)

theorem storedOrders_rows {s s' : Site Memory κ} {orders : List Order}
    (answer : counted storedOrders s = (.ok orders, s')) : orders = s.store.orders.rows :=
  storedOrders_shows.answer orders (congrArg Prod.fst answer)

/-- The store in memory lists its orders by their ids, so a scroll has nothing to sort. -/
theorem scrollOrders_memory (userId cursor limit : Nat) :
    (scrollOrders userId cursor limit : Act Memory κ (List Order × Nat)) = do
      let orders ← counted storedOrders
      return scrollFrom (·.id) (orders.filter (·.userId = userId)) cursor limit := by
  funext s
  unfold scrollOrders
  rw [bind_run, bind_run]
  rcases hr : counted storedOrders s with ⟨halt | orders, s'⟩
  · rfl
  · have ascending : orders.Pairwise (·.id < ·.id) := storedOrders_rows hr ▸ s.store.orders.ascending
    have sorted : (orders.filter (·.userId = userId)).mergeSort (·.id ≤ ·.id) = orders.filter (·.userId = userId) :=
      List.mergeSort_of_pairwise ((ascending.filter _).imp fun below => by simpa using below.le)
    dsimp only
    rw [sorted]

/-- A scroll that answers shows orders of the user after the cursor. -/
theorem scrollOrders_after {userId cursor limit : Nat} (positive : 0 < limit) {s s' : Site Memory κ}
    (nonzero : ∀ o ∈ s.store.orders.rows, o.id ≠ 0) {page : List Order} {next : Nat}
    (answer : scrollOrders userId cursor limit s = (.ok (page, next), s')) :
    PageAfter (·.id) (s.store.ordersOf userId) cursor page next := by
  rw [scrollOrders_memory, bind_run] at answer
  rcases hr : counted storedOrders s with ⟨halt | orders, s₁⟩ <;> rw [hr] at answer
  · cases answer
  · have shown : scrollFrom (·.id) (s.store.ordersOf userId) cursor limit = (page, next) := by
      rw [Memory.ordersOf, ← storedOrders_rows hr]
      cases answer
      rfl
    have ascending : (s.store.ordersOf userId).Pairwise (·.id < ·.id) := s.store.orders.ascending.filter _
    have own : ∀ o ∈ s.store.ordersOf userId, o.id ≠ 0 := fun o ho => nonzero o (List.mem_filter.1 ho).1
    have after := scrollFrom_after ascending own positive cursor
    rwa [shown] at after

/-! ## Walks -/

/-- a page that a client got, with the store it was read from, the cursor it was asked with and the cursor that came
with it -/
structure ServedPage where
  store : Memory
  cursor : Nat
  orders : List Order
  next : Nat

/-- a pool of calls, and the pages that a client got so far -/
structure Walk (κ : Type) where
  pool : Pool Memory κ
  pages : List ServedPage

namespace Walk

/-- the cursor to ask with -/
def cursor (pages : List ServedPage) : Nat := (pages.getLast?.map (·.next)).getD 0

/-- The client got a cursor of zero. -/
def Over (pages : List ServedPage) : Prop := pages ≠ [] ∧ cursor pages = 0

instance (pages : List ServedPage) : Decidable (Over pages) := inferInstanceAs (Decidable (_ ∧ _))

/-- the orders that the client got -/
def delivered (pages : List ServedPage) : List Order := pages.flatMap (·.orders)

variable [HistoryCache κ]

/-- After some moves of the pool the client asks for the next page, unless it is at the end. If it is refused it asks
again with the same cursor, after the next moves. -/
def goOn (ask : Nat → Act Memory κ (List Order × Nat)) (w : Walk κ) (moves : List (Move Memory κ)) : Walk κ :=
  let pool := w.pool.run moves
  if Over w.pages then { w with pool } else
    match ask (cursor w.pages) pool.site with
    | (.ok (orders, next), site) =>
      ⟨{ pool with site }, w.pages ++ [⟨pool.site.store, cursor w.pages, orders, next⟩]⟩
    | (.error _, site) => { w with pool := { pool with site } }

/-- a walk from the front, with moves of the pool before each page -/
def run (ask : Nat → Act Memory κ (List Order × Nat)) (p : Pool Memory κ) (gaps : List (List (Move Memory κ))) :
    Walk κ :=
  gaps.foldl (goOn ask) ⟨p, []⟩

@[simp] theorem cursor_concat (pages : List ServedPage) (p : ServedPage) : cursor (pages ++ [p]) = p.next := by
  simp [cursor]

@[simp] theorem delivered_concat (pages : List ServedPage) (p : ServedPage) :
    delivered (pages ++ [p]) = delivered pages ++ p.orders := by
  simp [delivered]

theorem over_concat {pages : List ServedPage} {p : ServedPage} : Over (pages ++ [p]) ↔ p.next = 0 := by
  simp [Over]

/-- No stored order had an id of zero when a page was read. -/
def Nonzero (pages : List ServedPage) : Prop := ∀ p ∈ pages, ∀ o ∈ p.store.orders.rows, o.id ≠ 0

/-- The order was the user's whenever a page was read. -/
def Stayed (userId : Nat) (pages : List ServedPage) (id : Nat) : Prop :=
  ∀ p ∈ pages, ∃ o ∈ p.store.ordersOf userId, o.id = id

/-- what holds of the pages that a client got of the orders of a user -/
structure InOrder (userId : Nat) (pages : List ServedPage) : Prop where
  /-- the first page was asked for with zero, and each other with the cursor that came with the page before it -/
  fed : pages.map (·.cursor) ++ [cursor pages] = 0 :: pages.map (·.next)
  ascending : ((delivered pages).map (·.id)).Pairwise (· < ·)
  own : ∀ p ∈ pages, ∀ o ∈ p.orders, o ∈ p.store.ordersOf userId
  onward : ∀ p ∈ pages, p.orders ≠ [] → p.cursor < p.next
  reached : ∀ id ∈ (delivered pages).map (·.id), Over pages ∨ id ≤ cursor pages
  /-- up to its cursor a walk has passed over nothing that stayed, and if it is over nothing at all -/
  whole : pages ≠ [] → ∀ id, Stayed userId pages id → Over pages ∨ id ≤ cursor pages →
    id ∈ (delivered pages).map (·.id)

theorem inOrder_nil (userId : Nat) : InOrder userId [] where
  fed := rfl
  ascending := List.Pairwise.nil
  own := nofun
  onward := nofun
  reached := nofun
  whole := fun h => absurd rfl h

/-- What holds of the pages so far, holds with the next page. -/
theorem InOrder.concat {userId : Nat} {pages : List ServedPage} (h : InOrder userId pages) (going : ¬ Over pages)
    {p : ServedPage} (asked : p.cursor = cursor pages) (nonzero : ∀ o ∈ p.store.orders.rows, o.id ≠ 0)
    (after : PageAfter (·.id) (p.store.ordersOf userId) p.cursor p.orders p.next) : InOrder userId (pages ++ [p]) := by
  have behind : ∀ id ∈ (delivered pages).map (·.id), id ≤ p.cursor := fun id hid =>
    asked ▸ (h.reached id hid).resolve_left going
  have ids : (delivered (pages ++ [p])).map (·.id) = (delivered pages).map (·.id) ++ p.orders.map (·.id) := by
    rw [delivered_concat, List.map_append]
  constructor
  case fed =>
    rw [List.map_append, List.map_append, cursor_concat, ← List.cons_append, ← h.fed, List.map_singleton,
      List.map_singleton, asked]
  case ascending =>
    have page : (p.orders.map (·.id)).Pairwise (· < ·) :=
      List.pairwise_map.2 ((p.store.orders.ascending.filter _).sublist after.part)
    rw [ids]
    refine List.pairwise_append.2 ⟨h.ascending, page, fun id hid id' hid' => ?_⟩
    obtain ⟨o, ho, rfl⟩ := List.mem_map.1 hid'
    exact (behind id hid).trans_lt (after.above o ho)
  case own =>
    intro q hq o ho
    rcases List.mem_append.1 hq with hq | hq
    · exact h.own q hq o ho
    · obtain rfl := List.mem_singleton.1 hq
      exact after.part.subset ho
  case onward =>
    intro q hq
    rcases List.mem_append.1 hq with hq | hq
    · exact h.onward q hq
    · obtain rfl := List.mem_singleton.1 hq
      exact after.onward
  case reached =>
    intro id hid
    rw [over_concat, cursor_concat]
    by_cases last : p.orders = []
    · exact .inl (after.ended last)
    · refine .inr ?_
      rw [ids] at hid
      rcases List.mem_append.1 hid with hid | hid
      · exact (behind id hid).trans (after.onward last).le
      · obtain ⟨o, ho, rfl⟩ := List.mem_map.1 hid
        exact after.upTo o ho
  case whole =>
    intro _ id stayed passed
    rw [over_concat, cursor_concat] at passed
    obtain ⟨o, ho, rfl⟩ := stayed p (by simp)
    rw [ids, List.mem_append]
    by_cases earlier : o.id ≤ cursor pages
    · -- the front of a walk is at zero, where no order is
      have begun : pages ≠ [] := by
        rintro rfl
        exact nonzero o (List.mem_filter.1 ho).1 (Nat.le_zero.1 earlier)
      exact .inl (h.whole begun _ (fun q hq => stayed q (List.mem_append_left _ hq)) (.inr earlier))
    · exact .inr (List.mem_map_of_mem (after.whole o ho (asked ▸ Nat.lt_of_not_le earlier) passed))

theorem goOn_in_order {userId limit : Nat} (positive : 0 < limit) {w : Walk κ}
    (h : Nonzero w.pages → InOrder userId w.pages) (moves : List (Move Memory κ))
    (nonzero : Nonzero (goOn (scrollOrders userId · limit) w moves).pages) :
    InOrder userId (goOn (scrollOrders userId · limit) w moves).pages := by
  unfold goOn at nonzero ⊢
  dsimp only at nonzero ⊢
  split_ifs at nonzero ⊢ with ended
  · exact h nonzero
  · rcases answer : scrollOrders userId (cursor w.pages) limit (w.pool.run moves).site with
      ⟨halt | ⟨orders, next⟩, s'⟩ <;> rw [answer] at nonzero
    · exact h nonzero
    · have stored := nonzero ⟨(w.pool.run moves).site.store, cursor w.pages, orders, next⟩ (by simp)
      have earlier : Nonzero w.pages := fun q hq => nonzero q (List.mem_append_left _ hq)
      exact (h earlier).concat ended rfl stored (scrollOrders_after positive stored answer)

theorem foldl_in_order {userId limit : Nat} (positive : 0 < limit) (gaps : List (List (Move Memory κ))) {w : Walk κ}
    (h : Nonzero w.pages → InOrder userId w.pages)
    (nonzero : Nonzero (gaps.foldl (goOn (scrollOrders userId · limit)) w).pages) :
    InOrder userId (gaps.foldl (goOn (scrollOrders userId · limit)) w).pages := by
  induction gaps generalizing w with
  | nil => exact h nonzero
  | cons moves gaps ih => exact ih (goOn_in_order positive h moves) nonzero

end Walk

open Walk

/-- **Walks.** Whatever calls do between two pages, and whatever faults refuse: in the pages that a client gets of the
orders of a user, if it asks for one order at least, ids ascend over all pages, each order is the user's in the store
that it was read from, a page that is not empty comes with a larger cursor than the page before, and the walk that ends
at a cursor of zero has all orders that were the user's whenever a page was read. -/
theorem walk_in_order {κ : Type} [HistoryCache κ] {userId limit : Nat} (positive : 0 < limit) (p : Pool Memory κ)
    (gaps : List (List (Move Memory κ))) (nonzero : Nonzero (Walk.run (scrollOrders userId · limit) p gaps).pages) :
    InOrder userId (Walk.run (scrollOrders userId · limit) p gaps).pages :=
  foldl_in_order positive gaps (fun _ => inOrder_nil userId) nonzero

/-! ## A busy shelf -/

/-- A call enters, as the one with a number, and takes all its steps. -/
def carriedOut (i : Nat) (c : Call) : List (Move Memory TimedCache) := .enter c :: List.replicate 5 (.step i)

/-- Client 8 has order 5, and client 7 has all others. Order 2 is on the first page. Before the second page it is gone
and so is order 6, and orders 1 and 7 have come. -/
def busyShelf : List (List (Move Memory TimedCache)) :=
  let parcel (id userId : Nat) : Call := .accept { lightParcel with orderId := id, userId := userId }
  [carriedOut 0 (parcel 2 7) ++ carriedOut 1 (parcel 3 7) ++ carriedOut 2 (parcel 5 8) ++ carriedOut 3 (parcel 6 7),
    carriedOut 4 (.process 7 .issue [2, 6]) ++ carriedOut 5 (.process 7 .takeBack [2, 6]) ++
      carriedOut 6 (.reclaim 2) ++ carriedOut 7 (.reclaim 6) ++ carriedOut 8 (parcel 1 7) ++ carriedOut 9 (parcel 7 7),
    [], []]

theorem walk_in_order_on_busy_shelf :
    let pages := (Walk.run (scrollOrders 7 · 1) ⟨opening TimedCache.empty, []⟩ busyShelf).pages
    InOrder 7 pages ∧ Over pages ∧ (delivered pages).map (·.id) = [2, 3, 7] := by
  have unsorted : (scrollOrders 7 · 1 : Nat → Act Memory TimedCache (List Order × Nat)) = fun cursor => do
      let orders ← counted storedOrders
      return scrollFrom (·.id) (orders.filter (·.userId = 7)) cursor 1 :=
    funext fun cursor => scrollOrders_memory 7 cursor 1
  refine ⟨walk_in_order (by decide) _ _ ?_, ?_⟩ <;> rw [unsorted]
  · unfold Nonzero
    decide +kernel
  · decide +kernel

end PickupPoint
