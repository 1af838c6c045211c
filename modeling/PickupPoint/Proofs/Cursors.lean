/-
Scrolls through a store that stays as it is.

A scroll goes on until it gets a cursor of zero, which is to say that nothing is left. But the cursor that comes with a
page is the id of the last order on it, so an order whose id is zero ends a scroll before its time. A user whose orders
have other ids gets every one of them exactly once, and only such a user is safe: `cursors_unambiguous_iff`.

Nothing keeps a courier from handing over a parcel whose id is zero (`scroll_ends_early`).
-/
import PickupPoint.Proofs.Listing
import PickupPoint.Proofs.Walks

namespace PickupPoint

open Act Walk

/-! ## What a page leaves -/

section Items

variable {α : Type} {key : α → Nat} {items : List α}

/-- What comes after the last item of a page is what the page has left. -/
theorem filter_beyond_page (ascending : items.Pairwise (key · < key ·)) {n : Nat} {first : List α} {last : α}
    (page : items.take n = first ++ [last]) : items.filter (key last < key ·) = items.drop n := by
  have shown : (items.take n).filter (key last < key ·) = [] := by
    refine List.filter_eq_nil_iff.2 fun x hx => ?_
    have reached : key x ≤ key last := (mem_take_ascending ascending page (List.mem_of_mem_take hx)).1 hx
    simpa using reached
  have left : (items.drop n).filter (key last < key ·) = items.drop n := by
    refine List.filter_eq_self.2 fun x hx => decide_eq_true ?_
    rw [← List.take_append_drop n items, page] at ascending
    exact (List.pairwise_append.1 ascending).2.2 last (by simp) x hx
  calc items.filter (key last < key ·)
      = (items.take n ++ items.drop n).filter (key last < key ·) := by rw [List.take_append_drop]
    _ = (items.take n).filter (key last < key ·) ++ (items.drop n).filter (key last < key ·) := List.filter_append ..
    _ = items.drop n := by rw [shown, left, List.nil_append]

/-- An item with a key of zero comes first, and a page that has it alone looks like the end. -/
theorem scrollFrom_zero (ascending : items.Pairwise (key · < key ·)) {x : α} (mem : x ∈ items) (zero : key x = 0) :
    scrollFrom key items 0 1 = ([x], 0) := by
  rcases items with _ | ⟨y, rest⟩
  · exact absurd mem List.not_mem_nil
  · have first : x = y := by
      refine (List.mem_cons.1 mem).resolve_right fun later => ?_
      have below : key y < key x := (List.pairwise_cons.1 ascending).1 x later
      exact absurd below (zero ▸ Nat.not_lt_zero _)
    subst first
    simp [scrollFrom, zero]

end Items

/-! ## Scrolls without faults -/

section Scrolls

variable {κ : Type} {s : Site Memory κ}

theorem ordersOf_ascending (m : Memory) (userId : Nat) : (m.ordersOf userId).Pairwise (·.id < ·.id) :=
  m.orders.ascending.filter _

/-- the orders of a user that come after a cursor -/
def Memory.ordersAbove (m : Memory) (userId cursor : Nat) : List Order := (m.ordersOf userId).filter (cursor < ·.id)

theorem ordersAbove_zero {m : Memory} {userId : Nat} (nonzero : ∀ o ∈ m.ordersOf userId, o.id ≠ 0) :
    m.ordersAbove userId 0 = m.ordersOf userId :=
  List.filter_eq_self.2 fun o ho => decide_eq_true (Nat.pos_of_ne_zero (nonzero o ho))

theorem ordersAbove_last {m : Memory} {userId cursor limit : Nat} {first : List Order} {last : Order}
    (page : (m.ordersAbove userId cursor).take limit = first ++ [last]) :
    m.ordersAbove userId last.id = (m.ordersAbove userId cursor).drop limit := by
  have mem : last ∈ m.ordersAbove userId cursor := List.mem_of_mem_take (i := limit) (by simp [page])
  have above : cursor < last.id := of_decide_eq_true (List.mem_filter.1 mem).2
  have ascending : (m.ordersAbove userId cursor).Pairwise (·.id < ·.id) := (ordersOf_ascending m userId).filter _
  rw [← filter_beyond_page ascending page, Memory.ordersAbove, Memory.ordersAbove, List.filter_filter]
  refine List.filter_congr fun o _ => ?_
  rw [← Bool.decide_and]
  exact decide_eq_decide.2 ⟨fun later => ⟨later, above.trans later⟩, fun h => h.1⟩

theorem scrollOrders_run (hs : s.faults = []) (userId cursor limit : Nat) :
    scrollOrders userId cursor limit s = (.ok (scrollFrom (·.id) (s.store.ordersOf userId) cursor limit), s) := by
  rw [scrollOrders_memory, bind_run, counted_run, storedOrders_run (.of_nil hs) rfl]
  rfl

variable [HistoryCache κ] {userId limit : Nat}

/-- the next page of a walk, where nothing comes between -/
theorem goOn_answered {ask : Nat → Act Memory κ (List Order × Nat)} {w : Walk κ} (going : ¬ Over w.pages)
    {page : List Order} {next : Nat} {site : Site Memory κ}
    (answer : ask (cursor w.pages) w.pool.site = (.ok (page, next), site)) :
    goOn ask w [] = ⟨{ w.pool with site }, w.pages ++ [⟨w.pool.site.store, cursor w.pages, page, next⟩]⟩ := by
  have asked : ask (cursor w.pages) (w.pool.run []).site = _ := answer
  unfold goOn
  rw [if_neg going, asked]
  rfl

theorem goOn_run (limit : Nat) (hs : s.faults = []) (nonzero : ∀ o ∈ s.store.ordersOf userId, o.id ≠ 0) {w : Walk κ}
    (here : w.pool.site = s) (going : ¬ Over w.pages) {page : List Order}
    (cut : (s.store.ordersAbove userId (cursor w.pages)).take limit = page) :
    goOn (scrollOrders userId · limit) w [] =
      ⟨w.pool, w.pages ++ [⟨s.store, cursor w.pages, page, (page.getLast?.map (·.id)).getD 0⟩]⟩ := by
  subst cut here
  have answer := scrollOrders_run hs userId (cursor w.pages) limit
  rw [scrollFrom_ascending (ordersOf_ascending _ userId) nonzero] at answer
  exact goOn_answered going answer

/-- A walk that is not over goes on to its end, and gets all that comes after its cursor. -/
theorem walk_through (hs : s.faults = []) (positive : 0 < limit) (nonzero : ∀ o ∈ s.store.ordersOf userId, o.id ≠ 0)
    {w : Walk κ} (here : w.pool.site = s) (going : ¬ Over w.pages) :
    ∃ n, Over ((List.replicate n []).foldl (goOn (scrollOrders userId · limit)) w).pages ∧
      delivered ((List.replicate n []).foldl (goOn (scrollOrders userId · limit)) w).pages =
        delivered w.pages ++ s.store.ordersAbove userId (cursor w.pages) := by
  -- each page that is not empty leaves less, so the induction is on how much is left
  generalize count : (s.store.ordersAbove userId (cursor w.pages)).length = k
  induction k using Nat.strong_induction_on generalizing w with
  | _ k ih =>
    rcases hlast : ((s.store.ordersAbove userId (cursor w.pages)).take limit).getLast? with _ | last
    · have none := List.getLast?_eq_none_iff.1 hlast
      have nothing := (List.take_eq_nil_iff.1 none).resolve_left positive.ne'
      have onward := goOn_run limit hs nonzero here going none
      refine ⟨1, ?_⟩
      rw [List.replicate_one, List.foldl_cons, List.foldl_nil, onward, nothing]
      exact ⟨over_concat.2 rfl, by simp⟩
    · obtain ⟨first, page⟩ := List.getLast?_eq_some_iff.1 hlast
      have mem : last ∈ s.store.ordersAbove userId (cursor w.pages) :=
        List.mem_of_mem_take (i := limit) (by simp [page])
      have left := ordersAbove_last page
      have fewer : ((s.store.ordersAbove userId (cursor w.pages)).drop limit).length < k := by
        rw [List.length_drop, ← count]
        exact Nat.sub_lt (List.length_pos_of_mem mem) positive
      have onward := goOn_run limit hs nonzero here going rfl
      rw [hlast] at onward
      obtain ⟨n, through, all⟩ := ih _ fewer (w := goOn (scrollOrders userId · limit) w [])
        (by rw [onward]; exact here)
        (by rw [onward, over_concat]; exact nonzero last (List.mem_filter.1 mem).1)
        (by rw [onward, cursor_concat]; exact congrArg List.length left)
      refine ⟨n + 1, through, ?_⟩
      calc delivered _ = delivered (goOn (scrollOrders userId · limit) w []).pages ++
            s.store.ordersAbove userId (cursor (goOn (scrollOrders userId · limit) w []).pages) := all
        _ = delivered w.pages ++ ((s.store.ordersAbove userId (cursor w.pages)).take limit ++
            (s.store.ordersAbove userId (cursor w.pages)).drop limit) := by
          rw [onward, cursor_concat, delivered_concat, List.append_assoc, ← left]
          rfl
        _ = delivered w.pages ++ s.store.ordersAbove userId (cursor w.pages) := by rw [List.take_append_drop]

/-! ## Cursors -/

/-- No cursor of the scrolls through the orders of a user is taken for something else. -/
structure Unambiguous (s : Site Memory κ) (userId : Nat) : Prop where
  /-- a cursor of zero comes with an empty page, and with no other -/
  ends : ∀ cursor limit, 0 < limit → ∃ page next,
    (scrollOrders userId cursor limit s).1 = .ok (page, next) ∧ (next = 0 ↔ page = [])
  /-- with the cursor of a page there come only orders after its last one -/
  onward : ∀ cursor limit page next last, 0 < limit → (scrollOrders userId cursor limit s).1 = .ok (page, next) →
    page.getLast? = some last → ∀ limit', 0 < limit' → ∃ page' next',
      (scrollOrders userId next limit' s).1 = .ok (page', next') ∧ ∀ o ∈ page', last.id < o.id
  /-- The walk from zero to zero gets all orders of the user, whose ids ascend, and so each of them once. -/
  whole : ∀ limit, 0 < limit → ∃ n,
    let pages := (Walk.run (scrollOrders userId · limit) ⟨s, []⟩ (List.replicate n [])).pages
    Over pages ∧ delivered pages = s.store.ordersOf userId

theorem unambiguous_of_nonzero (hs : s.faults = []) (nonzero : ∀ o ∈ s.store.ordersOf userId, o.id ≠ 0) :
    Unambiguous s userId := by
  have ascending := ordersOf_ascending s.store userId
  have after : ∀ {limit}, 0 < limit → ∀ cursor, PageAfter (·.id) (s.store.ordersOf userId) cursor
      (scrollFrom (·.id) (s.store.ordersOf userId) cursor limit).1
      (scrollFrom (·.id) (s.store.ordersOf userId) cursor limit).2 :=
    fun positive cursor => scrollFrom_after ascending nonzero positive cursor
  constructor
  case ends =>
    intro cursor limit positive
    refine ⟨_, _, congrArg Prod.fst (scrollOrders_run hs userId cursor limit), ?_, (after positive cursor).ended⟩
    intro zero
    by_contra some
    exact absurd zero (Nat.ne_zero_of_lt ((after positive cursor).onward some))
  case onward =>
    intro cursor limit page next last positive answer hlast limit' positive'
    rw [scrollOrders_run hs] at answer
    have shown := after positive cursor
    rw [Except.ok.inj answer] at shown
    refine ⟨_, _, congrArg Prod.fst (scrollOrders_run hs userId next limit'), fun o ho => ?_⟩
    exact (shown.upTo last (List.mem_of_getLast? hlast)).trans_lt ((after positive' next).above o ho)
  case whole =>
    intro limit positive
    obtain ⟨n, through, all⟩ :=
      walk_through (w := ⟨⟨s, []⟩, []⟩) hs positive nonzero rfl (fun ended => ended.1 rfl)
    exact ⟨n, through, all.trans (ordersAbove_zero nonzero)⟩

/-- **Cursors.** In every store and for every user, where no faults are set: cursors are unambiguous if no order of the
user has an id of zero, and only then. -/
theorem cursors_unambiguous_iff (hs : s.faults = []) (userId : Nat) :
    Unambiguous s userId ↔ ∀ o ∈ s.store.ordersOf userId, o.id ≠ 0 := by
  refine ⟨fun clear o mem zero => ?_, unambiguous_of_nonzero hs⟩
  obtain ⟨page, next, answer, marks⟩ := clear.ends 0 1 Nat.one_pos
  rw [scrollOrders_run hs, scrollFrom_zero (ordersOf_ascending s.store userId) mem zero] at answer
  cases answer
  exact absurd (marks.1 rfl) (List.cons_ne_nil _ _)

end Scrolls

/-! ## Two shelves -/

/-- what client 7 finds after a courier has brought parcels with these ids -/
def shelfOf (ids : List Nat) : Site Memory TimedCache :=
  Call.run (opening TimedCache.empty) (ids.map fun id => .accept { lightParcel with orderId := id })

theorem cursors_unambiguous_on_shelf :
    (shelfOf [5, 3]).faults = [] ∧ ((shelfOf [5, 3]).store.ordersOf 7).map (·.id) = [3, 5] ∧
      Unambiguous (shelfOf [5, 3]) 7 := by
  have faultless : (shelfOf [5, 3]).faults = [] := by decide +kernel
  exact ⟨faultless, by decide +kernel, (cursors_unambiguous_iff faultless 7).2 (by decide +kernel)⟩

/-- The first page has the order whose id is zero, and with it comes the cursor that ends the walk. -/
theorem scroll_ends_early :
    let pages := (Walk.run (scrollOrders 7 · 1) ⟨shelfOf [5, 0], []⟩ [[]]).pages
    ((shelfOf [5, 0]).store.ordersOf 7).map (·.id) = [0, 5] ∧ (delivered pages).map (·.id) = [0] ∧ Over pages ∧
      ¬ Unambiguous (shelfOf [5, 0]) 7 := by
  have unsorted : (scrollOrders 7 · 1 : Nat → Act Memory TimedCache (List Order × Nat)) = fun cursor => do
      let orders ← counted storedOrders
      return scrollFrom (·.id) (orders.filter (·.userId = 7)) cursor 1 :=
    funext fun cursor => scrollOrders_memory 7 cursor 1
  refine ⟨by decide +kernel, ?_, ?_, fun clear => ?_⟩
  · rw [unsorted]; decide +kernel
  · rw [unsorted]; decide +kernel
  · obtain ⟨page, next, answer, marks⟩ := clear.ends 0 1 Nat.one_pos
    have shown : (scrollOrders 7 0 1 (shelfOf [5, 0])).1.toOption.map (fun p => (p.1.map (·.id), p.2)) =
        some ([0], 0) := by
      rw [scrollOrders_memory]; decide +kernel
    rw [answer] at shown
    obtain ⟨ids, zero⟩ := Prod.mk.inj (Option.some.inj shown)
    obtain rfl : page = [] := marks.1 zero
    cases ids

end PickupPoint
