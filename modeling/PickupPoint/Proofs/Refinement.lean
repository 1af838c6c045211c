/-
The tables of a database do what the store in memory does.

In every session, as long as ids have row ids and deadlines are exact, and the clock of the database never goes back, both
stores give the same replies: the same refusals, the same orders but for how a price is written, and histories that tell
the same (`stores_agree`). The clock of the database may stand still: rows of one time are told by their ids. A deadline in
a leap second is none that a column keeps (`leap_second_moves`).
-/
import PickupPoint.Proofs.Abreast

namespace PickupPoint

open Act LawfulCache

open List (Forall₂)

/-! ## Replies that agree -/

/-- prices of one value, however they are written -/
def SameValue (p p' : Decimal) : Prop := p'.sameValue p = true

inductive Reply.Agrees : Reply → Reply → Prop
  | same (r : Reply) : Agrees r r
  | order {o o' : Order} (alike : o.Alike SameValue o') : Agrees (.order o) (.order o')
  | scrolled {l l' : List Order} (next : Nat) (alike : Forall₂ (Order.Alike SameValue) l l') :
    Agrees (.scrolled l next) (.scrolled l' next)
  | history {h h' : List HistoryEntry} (told : h'.map HistoryEntry.told = h.map HistoryEntry.told) :
    Agrees (.history h) (.history h')

/-- replies that agree, or one refusal -/
inductive Agree : Except Halt Reply → Except Halt Reply → Prop
  | answered {r r' : Reply} (agrees : r.Agrees r') : Agree (.ok r) (.ok r')
  | refused (e : Error) : Agree (.error (.error e)) (.error (.error e))

theorem Agree.of_together {σ τ κ ν : Type} {K : Site σ κ → Site τ ν → Prop} {act : Act σ κ Reply} {act' : Act τ ν Reply}
    (acts : Together K act act' (fun r r' s s' => r.Agrees r' ∧ K s s') K) {s : Site σ κ} {s' : Site τ ν}
    (hk : K s s') :
    Agree (act s).1 (act' s').1 := by
  obtain ⟨r, r', s₁, s₁', hr, hr', ends⟩ := acts s s' hk
  rw [hr, hr']
  cases ends with
  | ok hq => exact .answered hq.1
  | error _ => exact .refused _

/-! ## Scrolls -/

theorem scrollFrom_map {α β : Type} (f : α → β) (key : β → Nat) (items : List α) (cursor limit : Nat) :
    scrollFrom key (items.map f) cursor limit =
      ((scrollFrom (key ∘ f) items cursor limit).1.map f, (scrollFrom (key ∘ f) items cursor limit).2) := by
  have rest : (if cursor = 0 then items.map f else (items.map f).dropWhile (key · ≤ cursor)) =
      (if cursor = 0 then items else items.dropWhile ((key ∘ f) · ≤ cursor)).map f := by
    split_ifs
    · rfl
    · exact List.dropWhile_map ..
  unfold scrollFrom
  dsimp only
  rw [rest, ← List.map_take, List.getLast?_map, Option.map_map]

/-- What is done to prices does not matter to a scroll. -/
theorem scrolling_kept (userId cursor limit : Nat) (orders : List Order) :
    scrolling userId cursor limit (orders.map Order.kept) =
      ((scrolling userId cursor limit orders).1.map Order.kept, (scrolling userId cursor limit orders).2) := by
  have sorted : ((orders.map Order.kept).filter (·.userId = userId)).mergeSort (·.id ≤ ·.id) =
      ((orders.filter (·.userId = userId)).mergeSort (·.id ≤ ·.id)).map Order.kept := by
    rw [List.filter_map]
    exact (List.map_mergeSort (f := Order.kept) fun _ _ _ _ => rfl).symm
  unfold scrolling
  rw [sorted]
  exact scrollFrom_map ..

/-- Nor does the order in which orders are listed. -/
theorem scrolling_perm {p l : List Order} (perm : p.Perm l) (ascending : l.Pairwise (·.id < ·.id))
    (userId cursor limit : Nat) : scrolling userId cursor limit p = scrolling userId cursor limit l := by
  have sorted : ∀ l : List Order, (l.mergeSort (·.id ≤ ·.id)).Pairwise (fun a b => decide (a.id ≤ b.id) = true) :=
    List.pairwise_mergeSort (fun a b c hab hbc => by simp only [decide_eq_true_eq] at *; omega)
      fun a b => by simp only [Bool.or_eq_true, decide_eq_true_eq]; omega
  have distinct : (l.map (·.id)).Nodup := List.pairwise_map.2 (ascending.imp fun below => below.ne)
  have own : (p.filter (·.userId = userId)).Perm (l.filter (·.userId = userId)) := perm.filter _
  have same : (p.filter (·.userId = userId)).mergeSort (·.id ≤ ·.id) =
      (l.filter (·.userId = userId)).mergeSort (·.id ≤ ·.id) := by
    refine List.Perm.eq_of_pairwise (fun a b ha hb hab hba => ?_) (sorted _) (sorted _)
      ((List.mergeSort_perm _ _).trans (own.trans (List.mergeSort_perm _ _).symm))
    have ha' := perm.subset (List.mem_filter.1 (List.mem_mergeSort.1 ha)).1
    have hb' := (List.mem_filter.1 (List.mem_mergeSort.1 hb)).1
    exact List.inj_on_of_nodup_map distinct ha' hb' (Nat.le_antisymm (by simpa using hab) (by simpa using hba))
  unfold scrolling
  rw [same]

theorem scrolling_subset (userId cursor limit : Nat) (orders : List Order) :
    (scrolling userId cursor limit orders).1 ⊆ orders := by
  intro o ho
  have rest := List.mem_of_mem_take ho
  have own : o ∈ (orders.filter (·.userId = userId)).mergeSort (·.id ≤ ·.id) := by
    split_ifs at rest
    · exact rest
    · exact (List.dropWhile_suffix _).subset rest
  exact (List.mem_filter.1 (List.mem_mergeSort.1 own)).1

theorem kept_alike {orders : List Order} (h : ∀ o ∈ orders, o.Storable) :
    Forall₂ (Order.Alike SameValue) orders (orders.map Order.kept) := by
  refine List.forall₂_map_right_iff.2 (List.forall₂_same.2 fun o ho => ?_)
  have alike := (h o ho).alike
  exact { alike with price := alike.price.2 }

/-- A scroll shows the same on both sides. -/
theorem scrolling_listed {forward : Prop} {l l' : List Order} (listed : (mirror forward).listed l l')
    (userId cursor limit : Nat) :
    Forall₂ (Order.Alike SameValue) (scrolling userId cursor limit l).1 (scrolling userId cursor limit l').1 ∧
      (scrolling userId cursor limit l').2 = (scrolling userId cursor limit l).2 := by
  obtain ⟨ascending, p, perm, stores, rfl⟩ := listed
  rw [scrolling_kept, scrolling_perm perm ascending]
  exact ⟨kept_alike fun o ho => stores o (perm.symm.subset (scrolling_subset _ _ _ _ ho)), rfl⟩

/-! ## Sessions -/

variable {κ ν : Type} [HistoryCache κ] [HistoryCache ν] [LawfulCache κ] [LawfulCache ν]

/-- Two services that begin with nothing at one clock, one over the store in memory and one over the tables of a
database, which has a clock of its own. The clock of the services shows whole microseconds, and nothing fails on
purpose. -/
structure Opens (s : Site Memory κ) (s' : Site Tables ν) : Prop where
  store : s.store = .empty
  store' : s'.store = .empty s'.store.clock
  clock : s'.clock = s.clock
  whole : ∀ n, 1000 ∣ (s.clock.readings n).nano
  proper : ∀ n, (s.clock.readings n).Proper
  events : s'.metrics.events = s.metrics.events
  fair : Fair s
  fair' : Fair s'
  nothing : ∀ e, ¬ Holds s.cache e
  nothing' : ∀ e, ¬ Holds s'.cache e
  counts : ∀ n, Counts κ s.cacheTtl (s.clock.readings n)
  counts' : ∀ n, Counts ν s'.cacheTtl (s'.clock.readings n)

theorem mirrors_empty (clock : Clock) : Mirrors [] .empty (.empty clock) where
  ready := ⟨rfl, rfl, rfl⟩
  shelf := ⟨.nil, fun _ _ h => (nomatch h), List.nodup_nil, List.nil_sublist _⟩
  log := ⟨.nil, List.nil_sublist _, .nil, fun _ h => absurd h List.not_mem_nil⟩

theorem Opens.abreast {s : Site Memory κ} {s' : Site Tables ν} (h : Opens s s') {forward : Prop}
    (ahead : forward → Monotone s'.store.reading) : Abreast forward [] s s' where
  near := by
    refine ⟨h.clock, h.events, fun n => ⟨h.whole n, h.proper n⟩, .of_nil h.fair.faultless, .of_nil h.fair'.faultless,
      .refl s, .refl s', ?_, ?_, ahead⟩
    · rw [h.store, h.store']
      exact mirrors_empty _
    · rw [h.store']
      rfl
  fair := h.fair
  fair' := h.fair'
  counts := h.counts
  counts' := h.counts'
  covers e he := absurd he (h.nothing e)
  covers' _ e he := absurd he (h.nothing' e)

/-- A call whose ids have row ids and whose deadlines are exact. Listings by page are left out. -/
def Call.Suits : Call → Prop
  | .accept a => a.orderId ≤ maxRowId ∧ a.userId ≤ maxRowId ∧ a.expiresAt.Exact
  | .importAll records => ∀ a : Acceptance, .ok a ∈ records →
    a.orderId ≤ maxRowId ∧ a.userId ≤ maxRowId ∧ a.expiresAt.Exact
  | .reclaim id | .orderHistory id | .get id => id ≤ maxRowId
  | .process _ _ ids => ∀ id ∈ ids, id ≤ maxRowId
  | .history page count => page * count < bitLimit 63
  | .scroll .. => True
  | .list .. | .returns .. => False

theorem Call.Suits.allowed {forward : Prop} {c : Call} (h : c.Suits) : (mirror forward).Allows c := by
  cases c <;> first | exact h | trivial

/-- Two services in step give replies that agree, if the clock of the database never goes back. -/
theorem Abreast.agree {s : Site Memory κ} {s' : Site Tables ν} (h : Abreast True [] s s') {c : Call} (suits : c.Suits) :
    Agree (c.perform s).1 (c.perform s').1 := by
  have careful : Careful (mirror True) fun pending (s : Site Memory κ) (s' : Site Tables ν) =>
    Abreast True pending s s' := abreast_careful True
  have changed : c.IsChange → Agree (c.perform s).1 (c.perform s').1 := fun change =>
    .of_together ((careful.change change suits.allowed).weaken fun r r' _ _ hq => ⟨hq.1 ▸ .same r, hq.2⟩) h
  cases c with
  | accept | reclaim | process | importAll => exact changed trivial
  | list | returns => cases suits
  | get id =>
    refine .of_together (K := Abreast True []) ((careful.still _ fun _ _ _ _ _ =>
      (mirror_sound True).getOrder_still suits).bind fun o o' => .given fun alike => .pure fun _ _ hk => ⟨?_, hk⟩) h
    exact .order { alike with price := alike.price.2 }
  | history page count =>
    refine .of_together (K := Abreast True []) ((careful.still _ fun _ _ _ _ _ =>
      (mirror_sound True).historyPage_still page count).bind
      fun l l' => .given fun retold => .pure fun _ _ hk => ⟨?_, hk⟩) h
    exact .history (told_of_retold (retold trivial))
  | scroll userId cursor limit =>
    have shown : Together (Abreast True []) (scrollOrders userId cursor limit : Act Memory κ _)
        (scrollOrders userId cursor limit : Act Tables ν _)
        (fun x x' s s' => (Forall₂ (Order.Alike SameValue) x.1 x'.1 ∧ x'.2 = x.2) ∧ Abreast True [] s s') (Abreast True []) := by
      refine careful.still _ fun _ _ _ _ _ =>
        ((mirror_sound True).scrollOrders_still userId cursor limit).weaken fun x x' _ _ => ?_
      rintro ⟨⟨l, l', listed, rfl, rfl⟩, near⟩
      exact ⟨scrolling_listed listed userId cursor limit, near⟩
    refine .of_together (K := Abreast True []) (shown.bind fun x x' => .given fun ⟨alike, next⟩ => .pure fun _ _ hk =>
      ⟨?_, hk⟩) h
    rw [next]
    exact .scrolled _ alike
  | orderHistory id =>
    obtain ⟨r, r', s₁, s₁', hr, hr', answers, answers', -⟩ := h.look suits
    have answers' := answers' trivial
    show Agree ((do return .history (← orderHistory id) : Act Memory κ Reply) s).1
      ((do return .history (← orderHistory id) : Act Tables ν Reply) s').1
    rw [bind_run, bind_run, hr, hr']
    cases answers with
    | known tells =>
      cases answers' with
      | known tells' => exact .answered (.history (tells'.1.trans tells.1.symm))
      | unknown none => exact absurd none tells.2
    | unknown none =>
      cases answers' with
      | known tells' => exact absurd none tells'.2
      | unknown _ => exact .refused .orderNotFound

/-- **Both stores do the same.** In every session that begins with nothing, whatever caches there are, each call has
replies that agree: the same refusal, or the same answer but for how prices are written and for the ids and times in
histories. Ids have row ids, deadlines are exact, and the clock of the database never goes back. -/
theorem stores_agree {s : Site Memory κ} {s' : Site Tables ν} (opens : Opens s s')
    (forward : Monotone s'.store.reading) {turns : List Turn} (suits : ∀ c, .call c ∈ turns → c.Suits) {c : Call}
    (last : c.Suits) : Agree (c.perform (Turn.run s turns)).1 (c.perform (Turn.run s' turns)).1 :=
  ((abreast_careful True).run (fun c hc => (suits c hc).allowed) (opens.abreast fun _ => forward)).agree last

theorem opening_opens (clock : Clock) : Opens (opening TimedCache.empty) (openingTables clock CacheServer.empty) where
  store := rfl
  store' := rfl
  clock := rfl
  whole _ := Nat.dvd_zero _
  proper := (opening_fresh TimedCache.empty).proper
  events := rfl
  fair := ⟨rfl, trivial⟩
  fair' := ⟨rfl, rfl⟩
  nothing _ := List.not_mem_nil
  nothing' _ := fun ⟨_, hx, _⟩ => List.not_mem_nil hx
  counts := opening_counts
  counts' _ := trivial

/-- A parcel in a box, at a price with one digit after the point. -/
def boxedParcel : Acceptance := ⟨2, 7, 1, ⟨305, 1⟩, ⟨3600, 0⟩, "box"⟩

/-- Both are collected, and a third that is not there. -/
def boxFirst : List Turn :=
  [.call (.accept boxedParcel), .call (.accept lightParcel), .wait, .call (.process 7 .issue [1, 2, 3])]

theorem boxFirst_suits : ∀ c, .call c ∈ boxFirst → c.Suits := by
  intro c hc
  simp only [boxFirst, List.mem_cons, Turn.call.injEq, List.not_mem_nil, or_false] at hc
  rcases hc with rfl | rfl | hc | rfl
  · exact ⟨by decide, by decide, by decide⟩
  · exact ⟨by decide, by decide, by decide⟩
  · cases hc
  · exact (by decide : ∀ id ∈ [1, 2, 3], id ≤ maxRowId)

/-- The price is told with two digits by the tables, and is the same. All that the tables note, they note at one time,
and yet they tell it in the order in which it came about. -/
theorem stores_agree_on_price :
    (Monotone (openingTables Clock.still CacheServer.empty).store.reading ∧
        (Turn.run (openingTables Clock.still CacheServer.empty) boxFirst).store.history.map (·.createdAt) =
          List.replicate 4 ⟨0, 0⟩) ∧
      Agree ((Call.history 0 3).perform (Turn.run (opening TimedCache.empty) boxFirst)).1
        ((Call.history 0 3).perform (Turn.run (openingTables .still CacheServer.empty) boxFirst)).1 ∧
      Agree ((Call.get 2).perform (Turn.run (opening TimedCache.empty) boxFirst)).1
        ((Call.get 2).perform (Turn.run (openingTables .still CacheServer.empty) boxFirst)).1 ∧
      (getOrder 2 (Turn.run (opening TimedCache.empty) boxFirst)).1.toOption.map (·.price) = some ⟨505, 1⟩ ∧
      (getOrder 2 (Turn.run (openingTables .still CacheServer.empty) boxFirst)).1.toOption.map (·.price) =
        some ⟨5050, 2⟩ := by
  have forward : Monotone (openingTables Clock.still CacheServer.empty).store.reading := fun _ _ _ => le_rfl
  exact ⟨⟨forward, by decide +kernel⟩,
    stores_agree (opening_opens .still) forward boxFirst_suits (c := .history 0 3) (by decide : 0 * 3 < bitLimit 63),
    stores_agree (opening_opens .still) forward boxFirst_suits (c := .get 2) (by decide : 2 ≤ maxRowId),
    by decide +kernel, by decide +kernel⟩

/-! ## A leap second -/

omit [LawfulCache κ] [LawfulCache ν] in
theorem Agree.expiresAt {σ τ : Type} [OrderStore σ] [OrderStore τ] {s : Site σ κ} {s' : Site τ ν} {id : Nat}
    {o o' : Order} (h : Agree ((Call.get id).perform s).1 ((Call.get id).perform s').1)
    (left : (getOrder id s).1 = .ok o) (right : (getOrder id s').1 = .ok o') : o'.expiresAt = o.expiresAt := by
  change Agree ((do return .order (← getOrder id) : Act σ κ Reply) s).1
    ((do return .order (← getOrder id) : Act τ ν Reply) s').1 at h
  rw [bind_run, bind_run] at h
  generalize getOrder id s = x at h left
  generalize getOrder id s' = x' at h right
  obtain ⟨_, s₁⟩ := x
  obtain ⟨_, s₁'⟩ := x'
  cases left
  cases right
  cases h with
  | answered agrees =>
    cases agrees with
    | same => rfl
    | order alike => exact alike.expiresAt

/-- a parcel whose deadline is a leap second -/
def leapParcel : Acceptance := { lightParcel with expiresAt := ⟨3599, 1000000000⟩ }

/-- The deadline is in whole microseconds and a time that clocks show, but a column has no leap seconds: it keeps the
second after it. -/
theorem leap_second_moves :
    (1000 ∣ leapParcel.expiresAt.nano ∧ leapParcel.expiresAt.Proper) ∧
      ¬ Agree ((Call.get 1).perform (Turn.run (opening TimedCache.empty) [.call (.accept leapParcel)])).1
        ((Call.get 1).perform (Turn.run (openingTables .still CacheServer.empty) [.call (.accept leapParcel)])).1 := by
  refine ⟨⟨by decide, .inr (by decide)⟩, fun agree => ?_⟩
  have left : (getOrder 1 (Turn.run (opening TimedCache.empty) [.call (.accept leapParcel)])).1.toOption.map
      (·.expiresAt) = some ⟨3599, 1000000000⟩ := by decide +kernel
  have right : (getOrder 1 (Turn.run (openingTables .still CacheServer.empty) [.call (.accept leapParcel)])).1.toOption.map
      (·.expiresAt) = some ⟨3600, 0⟩ := by decide +kernel
  rcases hl : (getOrder 1 (Turn.run (opening TimedCache.empty) [.call (.accept leapParcel)])).1 with _ | o <;>
    rw [hl] at left
  · cases left
  rcases hr : (getOrder 1 (Turn.run (openingTables .still CacheServer.empty) [.call (.accept leapParcel)])).1 with _ | o' <;>
    rw [hr] at right
  · cases right
  have left : o.expiresAt = ⟨3599, 1000000000⟩ := Option.some.inj left
  have right : o'.expiresAt = ⟨3600, 0⟩ := Option.some.inj right
  have moved := agree.expiresAt hl hr
  rw [left, right] at moved
  cases moved

end PickupPoint
