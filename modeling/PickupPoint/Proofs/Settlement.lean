/-
What a batch comes to, told from the store before it.

An action is open to a client on an order that is the client's, is not overdue, and stands where the action starts. A
batch does each such id once, where it stands first, and all its other positions are errors (`Settles.parted`). The
orders that it leaves are those before it, with the ones that were done moved on (`Settles.moved`).

The ids are tried one after the other, each on what the ids before it have left. `Settled` says what these have made of
the store. An id comes to the same on it as at first, unless it was tried already (`verdict_settled`): an order that has
moved on does not stand where the action starts. So the order of the ids and their repetitions decide which positions
are reported, and nothing else.
-/
import PickupPoint.Proofs.Deadlines

namespace PickupPoint

open Act

/-! ## Orders that an action is open to -/

/-- the status that an action starts from -/
def Action.source? : Action → Option Status
  | .issue => some .expects
  | .takeBack => some .accepted
  | .unspecified => none

/-- The action is open to a client. -/
structure Order.Eligible (userId : Nat) (action : Action) (now : Instant) (o : Order) : Prop where
  own : o.userId = userId
  due : now ≤ o.expiresAt
  ready : action.source? = some o.status

instance (userId : Nat) (action : Action) (now : Instant) (o : Order) : Decidable (o.Eligible userId action now) :=
  decidable_of_iff (o.userId = userId ∧ now ≤ o.expiresAt ∧ action.source? = some o.status)
    ⟨fun ⟨own, due, ready⟩ => ⟨own, due, ready⟩, fun h => ⟨h.own, h.due, h.ready⟩⟩

/-- It is open on the order under an id. -/
def Memory.Eligible (userId : Nat) (action : Action) (now : Instant) (m : Memory) (id : Nat) : Prop :=
  ∃ o, m.orders.find? id = some o ∧ o.Eligible userId action now

/-- the order after the action -/
def Order.moved (action : Action) (now : Instant) (o : Order) : Order :=
  match action with
  | .issue => { o with status := .accepted, expiresAt := now.plusSeconds (48 * 3600) }
  | .takeBack => { o with status := .returned }
  | .unspecified => o

/-- the order after a batch of ids -/
def Order.settled (userId : Nat) (action : Action) (now : Instant) (ids : List Nat) (o : Order) : Order :=
  if o.id ∈ ids ∧ o.Eligible userId action now then o.moved action now else o

variable {userId : Nat} {action : Action} {now : Instant}

theorem Order.moved_id (o : Order) : (o.moved action now).id = o.id := by cases action <;> rfl

theorem Order.after_ok_iff {o : Order} {p : Order × EventType} :
    o.after action now = .ok p ↔ action.source? = some o.status ∧ p = (o.moved action now, action.eventType) := by
  cases action with
  | unspecified => simp [after, Action.source?]
  | issue => cases h : o.status <;> simp [after, h, Action.source?, moved, returnDeadline, returnWindowHours,
      Action.eventType, @eq_comm _ p]
  | takeBack => cases h : o.status <;> simp [after, h, Action.source?, moved, Action.eventType, @eq_comm _ p]

theorem Order.Eligible.not_moved {o : Order} (h : o.Eligible userId action now) :
    ¬ (o.moved action now).Eligible userId action now := by
  intro again
  cases action with
  | issue => cases again.ready
  | takeBack => cases again.ready
  | unspecified => cases h.ready

/-- An order that was among the ids already is not open to the action any more. -/
theorem Order.settled_eligible_iff {o : Order} {ids : List Nat} :
    (o.settled userId action now ids).Eligible userId action now ↔ o.Eligible userId action now ∧ o.id ∉ ids := by
  unfold settled
  split_ifs with h
  · exact iff_of_false h.2.not_moved fun fresh => fresh.2 h.1
  · exact ⟨fun open' => ⟨open', fun mem => h ⟨mem, open'⟩⟩, And.left⟩

theorem Order.settled_of_not_mem {o : Order} {ids : List Nat} (h : o.id ∉ ids) :
    o.settled userId action now ids = o :=
  if_neg fun mem => h mem.1

theorem Order.settled_congr {ids ids' : List Nat} {o : Order}
    (h : o.Eligible userId action now → (o.id ∈ ids ↔ o.id ∈ ids')) :
    o.settled userId action now ids = o.settled userId action now ids' := by
  unfold settled
  by_cases eligible : o.Eligible userId action now
  · simp [eligible, h eligible]
  · simp [eligible]

/-- What an action comes to on the order of a client. -/
theorem verdict_filter_iff {o : Order} {p : Order × EventType} :
    Order.verdict action now ((some o).filter (·.userId = userId)) = .ok p ↔
      o.Eligible userId action now ∧ p = (o.moved action now, action.eventType) := by
  by_cases own : o.userId = userId
  · rw [Option.filter_some_pos (by simpa using own), Order.verdict_ok_iff, Order.after_ok_iff]
    exact ⟨fun ⟨due, ready, same⟩ => ⟨⟨own, due, ready⟩, same⟩, fun ⟨h, same⟩ => ⟨h.due, h.ready, same⟩⟩
  · rw [Option.filter_some_neg (by simpa using own)]
    exact iff_of_false nofun fun h => own h.1.own

/-! ## One id after others -/

/-- what the ids of a batch so far have made of a store -/
def Settled (userId : Nat) (action : Action) (now : Instant) (m : Memory) (ids : List Nat) (m' : Memory) : Prop :=
  ∀ id, m'.orders.find? id = (m.orders.find? id).map (Order.settled userId action now ids)

variable {m m' : Memory} {done : List Nat}

theorem Settled.start (m : Memory) : Settled userId action now m [] m := by
  intro x
  have same : Order.settled userId action now [] = id := funext fun o => Order.settled_of_not_mem List.not_mem_nil
  rw [same, Option.map_id_fun, id_eq]

/-- An id comes to what it would have come to at first, and to nothing if it was there already. -/
theorem verdict_settled (h : Settled userId action now m done m') (id : Nat) (p : Order × EventType) :
    Order.verdict action now (m'.ownOrder userId id) = .ok p ↔
      ∃ o, m.orders.find? id = some o ∧ (o.Eligible userId action now ∧ id ∉ done) ∧
        p = (o.moved action now, action.eventType) := by
  rw [Memory.ownOrder, h id]
  rcases found : m.orders.find? id with _ | o
  · simp [Order.verdict]
  obtain rfl := OrderTable.find?_id found
  simp only [Option.map_some, Option.some.injEq, exists_eq_left']
  rw [verdict_filter_iff, Order.settled_eligible_iff]
  refine and_congr_right fun fresh => ?_
  rw [Order.settled_of_not_mem fresh.2]

theorem Settled.put (h : Settled userId action now m done m') {o : Order} (found : m.orders.find? o.id = some o)
    (eligible : o.Eligible userId action now) (id : Nat) :
    (m'.orders.put (o.moved action now)).find? id =
      (m.orders.find? id).map (Order.settled userId action now (done ++ [o.id])) := by
  rw [OrderTable.find?_put, Order.moved_id, h id]
  split_ifs with here
  · subst here
    rw [found, Option.map_some, Order.settled, if_pos ⟨by simp, eligible⟩]
  · refine Option.map_congr fun x there => Order.settled_congr fun _ => ?_
    have other : x.id ≠ o.id := by
      rw [OrderTable.find?_id there]
      exact fun same => here same.symm
    simp [other]

/-- What was not done of an id makes no difference. -/
theorem Settled.skip (h : Settled userId action now m done m') {id : Nat}
    (refused : ∀ o, m.orders.find? id = some o → o.Eligible userId action now → id ∈ done) :
    Settled userId action now m (done ++ [id]) m' := by
  intro x
  rw [h x]
  refine Option.map_congr fun o there => Order.settled_congr fun eligible => ?_
  obtain rfl := OrderTable.find?_id there
  have seen : o.id = id → o.id ∈ done := by
    rintro rfl
    exact refused o there eligible
  simpa using seen

section Sites

variable {κ : Type} {s : Site Memory κ}

/-- One id of a batch, tried on what the ids before it have left. -/
theorem Settled.step (hs : s.faults = []) (h : Settled userId action now m done s.store) (id : Nat) :
    ∃ outcome t, applyInBatch userId action now id s = (.ok (id, outcome), t) ∧ t.faults = [] ∧
      Settled userId action now m (done ++ [id]) t.store ∧
      (outcome.isSome ↔ m.Eligible userId action now id ∧ id ∉ done) := by
  have run := applyInBatch_run hs userId action now id
  have verdict := verdict_settled h id
  rcases hv : Order.verdict action now (s.store.ownOrder userId id) with e | ⟨o', t⟩ <;> rw [hv] at run verdict
  · have refused : ¬ (m.Eligible userId action now id ∧ id ∉ done) := by
      rintro ⟨⟨o, found, eligible⟩, fresh⟩
      exact absurd ((verdict _).2 ⟨o, found, ⟨eligible, fresh⟩, rfl⟩) nofun
    refine ⟨none, _, run, hs, h.skip fun o found eligible => ?_, iff_of_false nofun refused⟩
    by_contra fresh
    exact refused ⟨⟨o, found, eligible⟩, fresh⟩
  · obtain ⟨o, found, ⟨eligible, fresh⟩, same⟩ := (verdict _).1 rfl
    obtain ⟨rfl, rfl⟩ := Prod.mk.inj same
    refine ⟨some action.eventType, _, run, hs, ?_, iff_of_true rfl ⟨⟨o, found, eligible⟩, fresh⟩⟩
    obtain rfl := OrderTable.find?_id found
    exact h.put found eligible

/-- The rest of a batch, after some ids. -/
theorem Settled.rest (hs : s.faults = []) (h : Settled userId action now m done s.store) (ids : List Nat) :
    ∃ outcomes t, ids.mapM (applyInBatch userId action now) s = (.ok outcomes, t) ∧ t.faults = [] ∧
      Settled userId action now m (done ++ ids) t.store ∧ outcomes.map (·.1) = ids ∧
      (∀ i id, ids[i]? = some id → ((outcomes.map (·.2.isSome))[i]? = some true ↔
        m.Eligible userId action now id ∧ id ∉ done ++ ids.take i)) ∧
      ∀ id, id ∈ doneIds outcomes ↔ id ∈ ids ∧ m.Eligible userId action now id ∧ id ∉ done := by
  induction ids generalizing s done with
  | nil => exact ⟨[], s, rfl, hs, by simpa using h, rfl, by simp, by simp [doneIds]⟩
  | cons id ids ih =>
    obtain ⟨outcome, t, run, ht, settled, first⟩ := h.step hs id
    obtain ⟨outcomes, u, run', hu, settled', same, positions, members⟩ := ih ht settled
    refine ⟨(id, outcome) :: outcomes, u, ?_, hu, by simpa using settled', by simp [same], ?_, ?_⟩
    · rw [List.mapM_cons, bind_run, run]
      dsimp only
      rw [bind_run, run']
      rfl
    · intro i x hx
      cases i with
      | zero =>
        obtain rfl : id = x := by simpa using hx
        simpa using first
      | succ i => simpa using positions i x hx
    · intro x
      have among : x ∈ doneIds ((id, outcome) :: outcomes) ↔ (outcome.isSome ∧ x = id) ∨ x ∈ doneIds outcomes := by
        cases outcome <;> simp [doneIds]
      rw [among, members, first, List.mem_cons, List.mem_append, List.mem_singleton]
      by_cases here : x = id
      · subst here
        simp
      · simp [here]

end Sites

/-! ## Tables -/

/-- A table is what is found in it. -/
theorem OrderTable.eq_of_find? {t u : OrderTable} (h : ∀ id, t.find? id = u.find? id) : t = u := by
  apply OrderTable.ext
  apply eq_of_ascending t.ascending u.ascending
  intro o
  rw [mem_rows_iff, mem_rows_iff, h]

/-! ## Batches -/

/-- what a batch comes to, from the orders before it -/
structure Settles {κ : Type} (userId : Nat) (action : Action) (ids : List Nat) (r : BatchResult) (s s' : Site Memory κ) :
    Prop where
  /-- the first positions of ids on which the action is open are done, all others are errors -/
  parted : ∃ mask : List Bool, mask.length = ids.length ∧ r.processed = marked mask ids ∧
    r.errors = marked (mask.map (!·)) ids ∧ ∀ i id, ids[i]? = some id →
      (mask[i]? = some true ↔ s.store.Eligible userId action s.clock.current id ∧ id ∉ ids.take i)
  /-- their orders are moved on, all others are as they were -/
  moved : ∀ id, s'.store.orders.find? id =
    (s.store.orders.find? id).map (Order.settled userId action s.clock.current ids)

variable {κ : Type} [HistoryCache κ]

theorem process_settles (quiet : DropsQuietly κ) {s : Site Memory κ} (hs : s.faults = []) (userId : Nat)
    (action : Action) (ids : List Nat) :
    ∃ r s', process userId action ids s = (.ok r, s') ∧ Settles userId action ids r s s' ∧
      ∀ id, id ∈ r.processed ↔ id ∈ ids ∧ s.store.Eligible userId action s.clock.current id := by
  have start : Settled userId action s.clock.current s.store [] s.store := Settled.start s.store
  obtain ⟨outcomes, t, worked, ht, settled, same, positions, members⟩ :=
    Settled.rest (s := { s with clock := s.clock.advance }) hs start ids
  obtain ⟨u, answered, -, store, -⟩ := process_worked quiet hs worked ht
  refine ⟨_, u, answered, ⟨⟨outcomes.map (·.2.isSome), ?_, ?_, ?_, by simpa using positions⟩, ?_⟩, ?_⟩
  · rw [← same]; simp
  · rw [doneIds_marked, same]
  · rw [failedIds_marked, same]
  · intro id
    rw [store, settled id, List.nil_append]
  · simpa using members

/-- **What a batch comes to.** Where no faults are set, for every store, client, action and list of ids: a batch answers,
it does what the action is open on in the store before it, each id once and where it stands first, and it leaves the
orders so. Another batch of the same ids, in whatever order and however often they are repeated, does the same ids and
leaves the same orders. -/
theorem batch_settles (quiet : DropsQuietly κ) {s : Site Memory κ} (hs : s.faults = []) (userId : Nat)
    (action : Action) (ids : List Nat) :
    ∃ r s', process userId action ids s = (.ok r, s') ∧ Settles userId action ids r s s' ∧
      ∀ ids' : List Nat, (∀ id, id ∈ ids' ↔ id ∈ ids) → ∃ r' s'', process userId action ids' s = (.ok r', s'') ∧
        s''.store.orders = s'.store.orders ∧ ∀ id, id ∈ r'.processed ↔ id ∈ r.processed := by
  obtain ⟨r, s', run, settles, members⟩ := process_settles quiet hs userId action ids
  refine ⟨r, s', run, settles, fun ids' same => ?_⟩
  obtain ⟨r', s'', run', settles', members'⟩ := process_settles quiet hs userId action ids'
  refine ⟨r', s'', run', OrderTable.eq_of_find? fun id => ?_, fun id => ?_⟩
  · rw [settles.moved, settles'.moved]
    exact Option.map_congr fun o _ => Order.settled_congr fun _ => same o.id
  · rw [members, members', same]

/-- two parcels of client 7 on the shelf and one of client 8, no faults -/
def threeParcels : Site Memory TimedCache where
  clock := .ticking ⟨0, 0⟩
  eventIds := 0
  store := ((Memory.empty.seed ⟨1, 7, .expects, ⟨60, 0⟩, .box, 1, .ofNat 20⟩).seed
    ⟨2, 7, .expects, ⟨60, 0⟩, .bare, 1, .ofNat 10⟩).seed ⟨3, 8, .expects, ⟨60, 0⟩, .bag, 1, .ofNat 15⟩
  cache := .empty
  cacheTtl := 60
  metrics := .empty
  faults := []

/-- Client 7 asks for both parcels, one of them twice, for one that is not there and for the parcel of client 8. -/
theorem batch_settles_on_three_parcels :
    threeParcels.faults = [] ∧
      ∃ s', process 7 .issue [9, 2, 3, 1, 2] threeParcels = (.ok ⟨[2, 1], [9, 3, 2]⟩, s') ∧
        Settles 7 .issue [9, 2, 3, 1, 2] ⟨[2, 1], [9, 3, 2]⟩ threeParcels s' ∧
        ∃ r s'', process 7 .issue [1, 2, 3, 9] threeParcels = (.ok r, s'') ∧
          s''.store.orders = s'.store.orders ∧ ∀ id, id ∈ r.processed ↔ id ∈ [2, 1] := by
  have answer : (process 7 .issue [9, 2, 3, 1, 2] threeParcels).1 = .ok ⟨[2, 1], [9, 3, 2]⟩ := by decide +kernel
  obtain ⟨r, s', run, settles, again⟩ := batch_settles caches_dropQuietly.1 (s := threeParcels) rfl 7 .issue [9, 2, 3, 1, 2]
  rw [run] at answer
  cases answer
  have same : ∀ id, id ∈ [1, 2, 3, 9] ↔ id ∈ [9, 2, 3, 1, 2] := by grind
  exact ⟨rfl, s', run, settles, again [1, 2, 3, 9] same⟩

end PickupPoint
