/-
Clients share a pickup point and see nothing of each other.

Two sites look alike to a client (`LooksAlike`) if the client has the same orders there; what others have may differ,
and so may histories, events, caches and counters. Where no faults are set a batch, a listing and a scroll then come to
the same answer on both, count the same, and leave the client with the same orders, so an order of someone else is as
good as none (`clients_isolated`). A batch leaves the orders of everyone else as they are, whatever faults are set.
-/
import PickupPoint.Proofs.Cursors
import PickupPoint.Proofs.Prospects
import PickupPoint.Proofs.Verdicts

namespace PickupPoint

open Act

/-! ## Counting -/

namespace Metrics

/-- the counters after further counts -/
def plus (m d : Metrics) : Metrics := ⟨fun t => m.events t + d.events t, fun c => m.failures c + d.failures c⟩

theorem countEvent_plus (m d : Metrics) (t : EventType) : (m.plus d).countEvent t = m.plus (d.countEvent t) := by
  simp only [countEvent, plus, Metrics.mk.injEq, and_true]
  funext u
  split_ifs
  · exact Nat.add_assoc ..
  · rfl

theorem countFailure_plus (m d : Metrics) (c : ErrorCode) : (m.plus d).countFailure c = m.plus (d.countFailure c) := by
  simp only [countFailure, plus, Metrics.mk.injEq, true_and]
  funext u
  split_ifs
  · exact Nat.add_assoc ..
  · rfl

/-- the counters after some events -/
def countEvents (m : Metrics) (ts : List EventType) : Metrics := ts.foldl countEvent m

theorem countEvents_plus (m d : Metrics) (ts : List EventType) :
    (m.plus d).countEvents ts = m.plus (d.countEvents ts) := by
  induction ts generalizing d with
  | nil => rfl
  | cons t ts ih =>
    show ((m.plus d).countEvent t).countEvents ts = _
    rw [countEvent_plus, ih]
    rfl

end Metrics

/-! ## The orders of a client -/

theorem ownOrder_eq_some_iff (m : Memory) (userId id : Nat) (o : Order) :
    m.ownOrder userId id = some o ↔ o ∈ m.ordersOf userId ∧ o.id = id := by
  unfold Memory.ownOrder Memory.ordersOf
  rw [Option.filter_eq_some_iff, List.mem_filter, OrderTable.mem_rows_iff]
  constructor
  · rintro ⟨found, own⟩
    obtain rfl := OrderTable.find?_id found
    exact ⟨⟨found, own⟩, rfl⟩
  · rintro ⟨⟨found, own⟩, rfl⟩
    exact ⟨found, own⟩

/-- A client has the same orders in two stores if each id is the client's in both or in neither. -/
theorem ordersOf_eq_iff {m n : Memory} {userId : Nat} :
    m.ordersOf userId = n.ordersOf userId ↔ ∀ id, m.ownOrder userId id = n.ownOrder userId id := by
  constructor
  · intro same id
    refine Option.ext fun o => ?_
    rw [ownOrder_eq_some_iff, ownOrder_eq_some_iff, same]
  · intro same
    apply eq_of_ascending (ordersOf_ascending m userId) (ordersOf_ascending n userId)
    intro o
    have found := ownOrder_eq_some_iff m userId o.id o
    have found' := ownOrder_eq_some_iff n userId o.id o
    rw [same] at found
    simpa using found.symm.trans found'

theorem ownOrder_recorded_put (m : Memory) (t : EventType) (actor : Actor) (o : Order) (status : Status) (st : Stamp)
    (userId id : Nat) :
    (m.recorded (m.orders.put o) t actor o status st).ownOrder userId id =
      if o.id = id then (some o).filter (·.userId = userId) else m.ownOrder userId id := by
  show ((m.orders.put o).find? id).filter _ = _
  rw [OrderTable.find?_put]
  split_ifs <;> rfl

/-- What a client does changes no order of anyone else. -/
theorem ownOrder_processed {m m' : Memory} {userId other : Nat} {action : Action} {now : Instant} {id : Nat}
    (h : m.Changes (.process userId action now id) m') (foreign : other ≠ userId) (x : Nat) :
    m'.ownOrder other x = m.ownOrder other x := by
  cases h with
  | @processed o o' _ _ _ _ t st found own due after =>
    have owner : o'.userId = o.userId := by
      obtain ⟨_, ⟨_, _, rfl⟩ | ⟨_, _, rfl⟩⟩ := Order.after_ok after <;> rfl
    rw [ownOrder_recorded_put]
    split_ifs with same
    · rw [Option.filter_some_neg (by simpa [owner, own] using foreign.symm)]
      obtain rfl : id = x := (Order.after_found found after).symm.trans same
      rw [Memory.ownOrder, found, Option.filter_some_neg (by simpa [own] using foreign.symm)]
    · rfl

theorem ordersOf_processed {m m' : Memory} {cs : List Change} {userId other : Nat} (h : m.Changed cs m')
    (processed : ∀ c ∈ cs, ∃ action now id, c = .process userId action now id) (foreign : other ≠ userId) :
    m'.ordersOf other = m.ordersOf other := by
  refine ordersOf_eq_iff.2 fun x => ?_
  induction h with
  | nil => rfl
  | cons head _ ih =>
    obtain ⟨action, now, id, rfl⟩ := processed _ List.mem_cons_self
    rw [ih fun c hc => processed c (List.mem_cons_of_mem _ hc), ownOrder_processed head foreign]

/-! ## Two sites -/

section Sites

variable {κ α : Type}

/-- two sites without faults, with the same orders of a client, where what was counted adds the same to two counters -/
structure Twin (userId : Nat) (m m' : Metrics) (s s' : Site Memory κ) : Prop where
  faultless : s.faults = []
  faultless' : s'.faults = []
  own : ∀ id, s'.store.ownOrder userId id = s.store.ownOrder userId id
  counted : ∃ d, s.metrics = m.plus d ∧ s'.metrics = m'.plus d

/-- Two sites without faults, at the same time, where a client has the same orders. -/
structure LooksAlike (userId : Nat) (s s' : Site Memory κ) : Prop where
  faultless : s.faults = []
  faultless' : s'.faults = []
  time : s'.clock.current = s.clock.current
  orders : s'.store.ordersOf userId = s.store.ordersOf userId

/-- An act answers the same on both sites, counts the same, and leaves a client with the same orders. -/
structure AnswersAlike (userId : Nat) (act : Act Memory κ α) (s s' : Site Memory κ) : Prop where
  answer : (act s').1 = (act s).1
  counted : ∃ d, (act s).2.metrics = s.metrics.plus d ∧ (act s').2.metrics = s'.metrics.plus d
  orders : (act s').2.store.ordersOf userId = (act s).2.store.ordersOf userId

theorem AnswersAlike.of_twin {userId : Nat} {act : Act Memory κ α} {s s' t t' : Site Memory κ} {r : Except Halt α}
    (run : act s = (r, t)) (run' : act s' = (r, t')) (twin : Twin userId s.metrics s'.metrics t t') :
    AnswersAlike userId act s s' := by
  constructor <;> rw [run, run']
  · exact twin.counted
  · exact ordersOf_eq_iff.2 twin.own

variable {userId : Nat} {m m' : Metrics} {s s' : Site Memory κ}

theorem LooksAlike.twin (h : LooksAlike userId s s') : Twin userId s.metrics s'.metrics s s' :=
  ⟨h.faultless, h.faultless', ordersOf_eq_iff.1 h.orders, .empty, rfl, rfl⟩

namespace Twin

theorem countFailure (h : Twin userId m m' s s') (c : ErrorCode) :
    Twin userId m m' { s with metrics := s.metrics.countFailure c }
      { s' with metrics := s'.metrics.countFailure c } := by
  obtain ⟨d, hd, hd'⟩ := h.counted
  refine { h with counted := ⟨d.countFailure c, ?_, ?_⟩ }
  · rw [hd, Metrics.countFailure_plus]
  · rw [hd', Metrics.countFailure_plus]

theorem countEvents (h : Twin userId m m' s s') (ts : List EventType) :
    Twin userId m m' { s with metrics := s.metrics.countEvents ts }
      { s' with metrics := s'.metrics.countEvents ts } := by
  obtain ⟨d, hd, hd'⟩ := h.counted
  refine { h with counted := ⟨d.countEvents ts, ?_, ?_⟩ }
  · rw [hd, Metrics.countEvents_plus]
  · rw [hd', Metrics.countEvents_plus]

/-- the same order is stored on both sides -/
theorem noted (h : Twin userId m m' s s') (t : EventType) (actor : Actor) (o : Order) (status : Status) :
    Twin userId m m' (s.noted (s.store.orders.put o) t actor o status)
      (s'.noted (s'.store.orders.put o) t actor o status) := by
  refine { h with own := fun id => ?_ }
  show (s'.store.recorded (s'.store.orders.put o) t actor o status _).ownOrder userId id =
    (s.store.recorded (s.store.orders.put o) t actor o status _).ownOrder userId id
  rw [ownOrder_recorded_put, ownOrder_recorded_put, h.own]

/-- One id of a batch comes to the same verdict on both sides. -/
theorem applyInBatch (h : Twin userId m m' s s') (action : Action) (now : Instant) (id : Nat) :
    ∃ p t t', PickupPoint.applyInBatch userId action now id s = (.ok p, t) ∧
      PickupPoint.applyInBatch userId action now id s' = (.ok p, t') ∧ Twin userId m m' t t' := by
  have run := applyInBatch_run h.faultless userId action now id
  have run' := applyInBatch_run h.faultless' userId action now id
  rw [h.own] at run'
  rcases hv : Order.verdict action now (s.store.ownOrder userId id) with e | ⟨o, t⟩ <;> rw [hv] at run run'
  · exact ⟨_, _, _, run, run', h.countFailure e.code⟩
  · exact ⟨_, _, _, run, run', h.noted t (.client userId) o o.status⟩

theorem batch (h : Twin userId m m' s s') (action : Action) (now : Instant) (ids : List Nat) :
    ∃ outcomes t t', ids.mapM (PickupPoint.applyInBatch userId action now) s = (.ok outcomes, t) ∧
      ids.mapM (PickupPoint.applyInBatch userId action now) s' = (.ok outcomes, t') ∧ Twin userId m m' t t' := by
  induction ids generalizing s s' with
  | nil => exact ⟨[], s, s', rfl, rfl, h⟩
  | cons id ids ih =>
    obtain ⟨p, t, t', hp, hp', first⟩ := h.applyInBatch action now id
    obtain ⟨outcomes, u, u', ho, ho', rest⟩ := ih first
    refine ⟨p :: outcomes, u, u', ?_, ?_, rest⟩
    · rw [List.mapM_cons, bind_run, hp]
      dsimp only
      rw [bind_run, ho]
      rfl
    · rw [List.mapM_cons, bind_run, hp']
      dsimp only
      rw [bind_run, ho']
      rfl

end Twin

/-! ## Questions -/

theorem listOrders_shown (hs : s.faults = []) (userId : Nat) (inPickupPoint : Bool) (last page limit : Nat) :
    listOrders userId inPickupPoint last page limit s =
      if limit = 0 then (.error (.error zeroLimit), { s with metrics := s.metrics.countFailure zeroLimit.code })
      else (.ok (listing userId inPickupPoint last page limit (s.store.ordersOf userId)), s) := by
  unfold listOrders
  by_cases zero : limit = 0
  · rw [if_pos zero, if_pos zero]
    rfl
  · have own : matching userId inPickupPoint (s.store.ordersOf userId) =
        matching userId inPickupPoint s.store.orders.rows := by
      rw [matching, Memory.ordersOf, List.filter_filter]
      exact List.filter_congr fun o _ => by simp [Bool.and_right_comm]
    rw [if_neg zero, if_neg zero, listing, own]
    show ((counted storedOrders >>= fun orders => pure (listing userId inPickupPoint last page limit orders) :
      Act Memory κ (List Order × Nat)) s) = _
    rw [bind_run, counted_run, storedOrders_run (.of_nil hs) rfl]
    rfl

theorem LooksAlike.list (h : LooksAlike userId s s') (inPickupPoint : Bool) (last page limit : Nat) :
    AnswersAlike userId (listOrders userId inPickupPoint last page limit) s s' := by
  have run := listOrders_shown h.faultless userId inPickupPoint last page limit
  have run' := listOrders_shown h.faultless' userId inPickupPoint last page limit
  rw [h.orders] at run'
  by_cases zero : limit = 0
  · rw [if_pos zero] at run run'
    exact .of_twin run run' (h.twin.countFailure zeroLimit.code)
  · rw [if_neg zero] at run run'
    exact .of_twin run run' h.twin

theorem LooksAlike.scroll (h : LooksAlike userId s s') (cursor limit : Nat) :
    AnswersAlike userId (scrollOrders userId cursor limit) s s' := by
  have run := scrollOrders_run h.faultless userId cursor limit
  have run' := scrollOrders_run h.faultless' userId cursor limit
  rw [h.orders] at run'
  exact .of_twin run run' h.twin

/-! ## Batches -/

theorem noteBatch_countEvents (outcomes : List (Nat × Option EventType)) (s : Site Memory κ) :
    noteBatch outcomes s = (.ok (), { s with metrics := s.metrics.countEvents (outcomes.filterMap (·.2)) }) := by
  unfold noteBatch
  induction outcomes.filterMap (·.2) generalizing s with
  | nil => rfl
  | cons t ts ih =>
    show (do noteEvent t; ts.forM noteEvent : Act Memory κ Unit) s = _
    rw [bind_run, noteEvent_run]
    exact ih { s with metrics := s.metrics.countEvent t }

variable [HistoryCache κ]

/-- what a batch comes to whose work leaves no faults -/
theorem process_worked (quiet : DropsQuietly κ) {userId : Nat} {action : Action} {ids : List Nat} {s t : Site Memory κ}
    {outcomes : List (Nat × Option EventType)} (hs : s.faults = [])
    (worked : ids.mapM (applyInBatch userId action s.clock.current) { s with clock := s.clock.advance } =
      (.ok outcomes, t)) (ht : t.faults = []) :
    ∃ u, process userId action ids s = (.ok ⟨doneIds outcomes, failedIds outcomes⟩, u) ∧ u.faults = [] ∧
      u.store = t.store ∧ u.metrics = t.metrics.countEvents (outcomes.filterMap (·.2)) := by
  have through : transaction (ids.mapM (applyInBatch userId action s.clock.current))
      { s with clock := s.clock.advance } = _ := transaction_faultless hs (by rw [worked]; exact ht)
  rw [worked] at through
  obtain ⟨u, dropped, asked⟩ := @drops_calm _ _ quiet (doneIds outcomes)
    { t with metrics := t.metrics.countEvents (outcomes.filterMap (·.2)) } (Fault.calm_of_none ht)
  refine ⟨u, ?_, Fault.none_of_effects asked.effects ht, asked.store, asked.metrics⟩
  rw [process_run, through]
  show report outcomes t = _
  unfold report
  rw [bind_run, noteBatch_countEvents]
  dsimp only
  rw [bind_run, dropped]
  rfl

/-- A batch comes to the same on both sides. -/
theorem Twin.process (quiet : DropsQuietly κ) (h : Twin userId m m' s s') (time : s'.clock.current = s.clock.current)
    (action : Action) (ids : List Nat) :
    ∃ r t t', PickupPoint.process userId action ids s = (.ok r, t) ∧
      PickupPoint.process userId action ids s' = (.ok r, t') ∧ Twin userId m m' t t' := by
  have started : Twin userId m m' { s with clock := s.clock.advance } { s' with clock := s'.clock.advance } := { h with }
  obtain ⟨outcomes, t, t', worked, worked', twin⟩ := started.batch action s.clock.current ids
  obtain ⟨d, hd, hd'⟩ := (twin.countEvents (outcomes.filterMap (·.2))).counted
  obtain ⟨u, told, faultless, store, metrics⟩ := process_worked quiet h.faultless worked twin.faultless
  obtain ⟨u', told', faultless', store', metrics'⟩ :=
    process_worked quiet h.faultless' (time ▸ worked') twin.faultless'
  refine ⟨_, u, u', told, told', faultless, faultless', fun id => ?_, d, metrics.trans hd, metrics'.trans hd'⟩
  rw [store, store', twin.own]

/-- **Clients are isolated.** Where no faults are set and a client has the same orders, whatever others have: every batch
answers, and batches, listings and scrolls answer the same and count the same. And whatever faults are set, a batch
changes no order of anyone else. -/
theorem clients_isolated (quiet : DropsQuietly κ) (userId : Nat) :
    (∀ s s' : Site Memory κ, LooksAlike userId s s' →
      (∀ action ids, (∃ r, (process userId action ids s).1 = .ok r) ∧
        AnswersAlike userId (process userId action ids) s s') ∧
      (∀ inPickupPoint last page limit,
        AnswersAlike userId (listOrders userId inPickupPoint last page limit) s s') ∧
      ∀ cursor limit, AnswersAlike userId (scrollOrders userId cursor limit) s s') ∧
    ∀ (s : Site Memory κ) action ids other, other ≠ userId →
      (process userId action ids s).2.store.ordersOf other = s.store.ordersOf other := by
  refine ⟨fun s s' h => ⟨fun action ids => ?_, h.list, h.scroll⟩, fun s action ids other foreign => ?_⟩
  · obtain ⟨r, t, t', run, run', twin⟩ := h.twin.process quiet h.time action ids
    exact ⟨⟨r, congrArg Prod.fst run⟩, .of_twin run run' twin⟩
  · obtain ⟨cs, changed, ahead⟩ := perform_ahead (.process userId action ids) s
    have whole : (Call.process userId action ids).perform s = _ := map_run ..
    rw [whole] at changed
    refine ordersOf_processed changed (fun c hc => ?_) foreign
    obtain ⟨now, id, -, rfl⟩ := ahead c hc
    exact ⟨action, now, id, rfl⟩

end Sites

/-- what there is when client 7 has parcel 1 and others have theirs -/
def sharedWith (others : List Acceptance) : Site Memory TimedCache :=
  { Call.run (opening TimedCache.empty) ((lightParcel :: others).map .accept) with
    clock := (opening TimedCache.empty).clock }

/-- Client 7 asks for parcel 2 as well, which is someone else's in one place and nobody's in the other. -/
theorem clients_isolated_from_neighbour :
    DropsQuietly TimedCache ∧
      LooksAlike 7 (sharedWith [{ lightParcel with orderId := 2, userId := 8 }]) (sharedWith []) ∧
      AnswersAlike 7 (process 7 .issue [2, 1, 2]) (sharedWith [{ lightParcel with orderId := 2, userId := 8 }])
        (sharedWith []) ∧
      (process 7 .issue [2, 1, 2] (sharedWith [])).1 = .ok ⟨[1], [2, 2]⟩ ∧
      (process 7 .issue [2, 1, 2] (sharedWith [{ lightParcel with orderId := 2, userId := 8 }])).2.store.ordersOf 8 =
        (sharedWith [{ lightParcel with orderId := 2, userId := 8 }]).store.ordersOf 8 := by
  have quiet := caches_dropQuietly.1
  have alike : LooksAlike 7 (sharedWith [{ lightParcel with orderId := 2, userId := 8 }]) (sharedWith []) :=
    ⟨by decide +kernel, by decide +kernel, by decide +kernel, by decide +kernel⟩
  have isolated := clients_isolated quiet 7
  exact ⟨quiet, alike, ((isolated.1 _ _ alike).1 .issue [2, 1, 2]).2, by decide +kernel,
    isolated.2 _ .issue [2, 1, 2] 8 (by decide)⟩

end PickupPoint
