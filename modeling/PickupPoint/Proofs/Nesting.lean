/-
Transactions with savepoints nested to any depth.

A `Body` is what may be done inside a scope: calls of the store, readings of the clock, new event ids and further
savepoints, where what comes next depends on what they answer. A scope ends with an answer, a refusal or a panic, and
the refusal of a call or of a savepoint is an answer to the scope around it.

`Body.kept` lists the calls that no refused savepoint encloses. If a body answers, its transaction leaves what these
calls leave when they are made one after the other (`transaction_of_body`), the times of the history aside; if it
halts, nothing is left.
-/
import PickupPoint.Proofs.Faultless
import PickupPoint.Proofs.Steady

namespace PickupPoint

open Act

variable {σ κ α β : Type}

/-! ## Bodies -/

/-- a call of the store inside a transaction -/
inductive StoreCall where
  | find (id : Nat)
  | insert (o : Order)
  | update (o : Order)
  | delete (id : Nat)
  | appendHistory (id : Nat) (status : Status)
  | appendEvent (e : Event)

/-- what is done inside a scope -/
inductive Body : Type → Type 1 where
  | stop {α : Type} (r : Except Halt α) : Body α
  | time {α : Type} (next : Instant → Body α) : Body α
  | eventId {α : Type} (next : Uuid → Body α) : Body α
  | call {α : Type} (c : StoreCall) (next : Except Error (Option Order) → Body α) : Body α
  | savepoint {α β : Type} (inner : Body β) (next : Except Error (Option β) → Body α) : Body α

section Store

variable [OrderStore σ]

/-- a call answers an order, or that it is done -/
def StoreCall.act : StoreCall → Act σ κ (Option Order)
  | .find id => do
    return some (← findOrder id)
  | .insert o => do
    insertOrder o
    return none
  | .update o => do
    updateOrder o
    return none
  | .delete id => do
    deleteOrder id
    return none
  | .appendHistory id status => do
    PickupPoint.appendHistory id status
    return none
  | .appendEvent e => do
    reachedAt .txSaveEvent (onStore fun _ => OrderStore.appendEvent e)
    return none

namespace Body

def act : {α : Type} → Body α → Act σ κ α
  | _, .stop r => fun s => (r, s)
  | _, .time next => do
    (next (← readClock)).act
  | _, .eventId next => do
    (next (← newEventId)).act
  | _, .call c next => do
    (next (← attempt c.act)).act
  | _, .savepoint inner next => do
    (next (← attempt (PickupPoint.savepoint inner.act))).act

/-- the calls that are made outside of every savepoint that is refused, in their order -/
def kept : {α : Type} → Body α → Site σ κ → List StoreCall
  | _, .stop _, _ => []
  | _, .time next, s => (next s.clock.current).kept (readClock s).2
  | _, .eventId next, s => (next (Uuid.ofRandom s.eventIds)).kept (newEventId s).2
  | _, .call c next, s =>
    match attempt c.act s with
    | (.ok r, s') => c :: (next r).kept s'
    | (.error _, _) => []
  | _, .savepoint inner next, s =>
    match attempt (PickupPoint.savepoint inner.act) s with
    | (.ok (.ok b), s') => inner.kept s ++ (next (.ok b)).kept s'
    | (.ok (.error e), s') => (next (.error e)).kept s'
    | (.error _, _) => []

end Body

/-- calls one after the other, whatever they answer -/
def inTurn : List StoreCall → Act σ κ Unit
  | [] => return
  | c :: calls => do
    let _ ← attempt c.act
    inTurn calls

end Store

/-! ## Calls -/

/-- what a call does to a store in memory at a time, and what it answers -/
def StoreCall.access : StoreCall → Instant → Access Memory (Option Order)
  | .find id, _, m => ((Memory.find id m).1.map some, (Memory.find id m).2)
  | .insert o, _, m => ((Memory.insert o m).1.map fun _ => none, (Memory.insert o m).2)
  | .update o, _, m => ((Memory.update o m).1.map fun _ => none, (Memory.update o m).2)
  | .delete id, _, m => ((Memory.delete id m).1.map fun _ => none, (Memory.delete id m).2)
  | .appendHistory id status, now, m => (.ok none, (Memory.appendHistory id status now m).2)
  | .appendEvent e, _, m => (.ok none, (Memory.appendEvent e m).2)

/-- where no faults are set, a call of the store is what the store makes of it -/
theorem attempt_call {s : Site Memory κ} (hs : s.faults = []) (p : Point) (op : Instant → Access Memory α)
    (f : α → β) :
    attempt (do return f (← reachedAt p (onStore op))) s =
      (.ok ((op s.clock.current s.store).1.map f), { s with store := (op s.clock.current s.store).2 }) := by
  rw [attempt_run, bind_run, reachedAt_faultless hs, onStore_run]
  rcases (op s.clock.current s.store).1 with _ | _ <;> rfl

theorem StoreCall.attempt_act {s : Site Memory κ} (hs : s.faults = []) (c : StoreCall) :
    attempt c.act s =
      (.ok (c.access s.clock.current s.store).1, { s with store := (c.access s.clock.current s.store).2 }) := by
  cases c with
  | find id => exact attempt_call hs _ _ some
  | insert o => exact attempt_call hs _ _ fun _ => none
  | update o => exact attempt_call hs _ _ fun _ => none
  | delete id => exact attempt_call hs _ _ fun _ => none
  | appendHistory id status => exact attempt_call hs _ _ fun _ => none
  | appendEvent e => exact attempt_call hs _ _ fun _ => none

/-- the store with all times of its history the same -/
def Memory.undated (m : Memory) : Memory :=
  { m with history := m.history.map ({ · with createdAt := ⟨0, 0⟩ }) }

/-- A call makes the same of stores that differ in the times of their histories alone, whenever it is made. -/
theorem StoreCall.access_undated {m n : Memory} (h : m.undated = n.undated) (c : StoreCall) (t u : Instant) :
    (c.access t m).2.undated = (c.access u n).2.undated := by
  obtain ⟨orders, history, outbox, ids⟩ := Memory.mk.injEq .. ▸ h
  cases c with
  | find id => simp only [access, Memory.find_snd]; exact h
  | insert o =>
    simp only [access, Memory.insert, orders]
    split <;> simp [Memory.undated, Memory.seed, orders, history, outbox, ids]
  | update o =>
    simp only [access, Memory.update, orders]
    split <;> simp [Memory.undated, Memory.seed, orders, history, outbox, ids]
  | delete id =>
    simp only [access, Memory.delete, orders]
    split <;> simp [Memory.undated, orders, history, outbox, ids]
  | appendHistory id status =>
    simp [access, Memory.appendHistory, Memory.undated, orders, history, outbox, ids]
  | appendEvent e => simp [access, Memory.appendEvent, Memory.undated, orders, history, outbox, ids]

/-- what calls make of a store, one after the other -/
def Memory.made (now : Instant) (m : Memory) (calls : List StoreCall) : Memory :=
  calls.foldl (fun m c => (c.access now m).2) m

theorem inTurn_run {s : Site Memory κ} (hs : s.faults = []) (calls : List StoreCall) :
    inTurn calls s = (.ok (), { s with store := s.store.made s.clock.current calls }) := by
  induction calls generalizing s with
  | nil => rfl
  | cons c calls ih =>
    have first := c.attempt_act hs
    have rest := @ih { s with store := (c.access s.clock.current s.store).2 } hs
    rw [inTurn, bind_run, first]
    exact rest

/-! ## Scopes -/

/-- all is as before but the store, how often the clock was read, the event ids and what faults have seen -/
structure Outside (s : Site σ κ) (_ : Option Halt) (s' : Site σ κ) : Prop where
  readings : s'.clock.readings = s.clock.readings
  cache : s'.cache = s.cache
  cacheTtl : s'.cacheTtl = s.cacheTtl
  metrics : s'.metrics = s.metrics
  effects : Fault.effects s'.faults = Fault.effects s.faults

theorem Within.outside {s s' : Site σ κ} {h : Option Halt} (hw : Within s h s') : Outside s h s' :=
  ⟨hw.readings, hw.cache, hw.cacheTtl, hw.metrics, hw.effects⟩

instance : Commits (@Outside σ κ) where
  comp h₁ h₂ := ⟨h₂.readings.trans h₁.readings, h₂.cache.trans h₁.cache, h₂.cacheTtl.trans h₁.cacheTtl,
    h₂.metrics.trans h₁.metrics, h₂.effects.trans h₁.effects⟩
  silent h := Within.outside h.toWithin
  attempt h := ⟨h.readings, h.cache, h.cacheTtl, h.metrics, h.effects⟩
  write _ h := ⟨h.readings, h.cache, h.cacheTtl, h.metrics, h.effects⟩
  arrive p after s := Within.outside (Within.arrive p after s)

theorem Outside.faultless {s s' : Site σ κ} {h : Option Halt} (ho : Outside s h s') (hs : s.faults = []) :
    s'.faults = [] :=
  Fault.none_of_effects ho.effects hs

/-- What is outside was left as it was, so the sites differ in what is inside alone. -/
theorem Outside.site {s s' : Site σ κ} {h : Option Halt} (ho : Outside s h s') (hs : s.faults = []) :
    s' = { s with
      clock := { s.clock with taken := s'.clock.taken }
      eventIds := s'.eventIds
      store := s'.store } := by
  have faults := ho.faultless hs
  obtain ⟨⟨readings, taken⟩, eventIds, store, cache, cacheTtl, metrics, fs⟩ := s'
  obtain ⟨rfl, rfl, rfl, rfl, -⟩ := ho
  cases faults
  rw [hs]

theorem closedAt_faultless {act : Act Memory κ α} {s : Site Memory κ} (h : (act s).2.faults = []) (p : Point)
    (after : Bool) : closedAt p after act s = act s := by
  unfold closedAt
  rw [bind_run]
  rcases hr : act s with ⟨halt | a, s'⟩ <;> rw [hr] at h
  dsimp only
  rw [bind_run, arrive_faultless h]
  rfl

theorem savepoint_faultless {act : Act Memory κ α} {s : Site Memory κ} (hs : s.faults = [])
    (h : (act s).2.faults = []) :
    attempt (savepoint act) s = match act s with
      | (.ok a, s') => (.ok (.ok (some a)), s')
      | (.error (.error e), s') => (.ok (.error e), { s' with store := s.store })
      | (.error (.panic text), s') => (.error (.panic text), s') := by
  rw [attempt_run, savepoint_run, arrive_faultless hs]
  dsimp only
  rcases hr : act s with ⟨(_ | _) | _, _⟩ <;> simp only [closedAt_faultless h, hr]

theorem transaction_faultless {act : Act Memory κ α} {s : Site Memory κ} (hs : s.faults = [])
    (h : (act s).2.faults = []) :
    transaction act s = match act s with
      | (.ok a, s') => (.ok a, s')
      | (.error halt, s') => (.error halt, { s' with store := s.store }) := by
  rw [transaction_run, arrive_faultless hs]
  dsimp only
  rcases hr : act s with ⟨_ | _, _⟩ <;> simp only [closedAt_faultless h, hr]

theorem StoreCall.act_obeys (c : StoreCall) (s : Site Memory κ) : Obeys Outside c.act s fun _ _ => True := by
  cases c with
  | find id => exact (findOrder_obeys id s).bind fun _ _ _ _ => Obeys.pure trivial
  | insert o => exact (insertOrder_obeys o s).bind fun _ _ _ _ => Obeys.pure trivial
  | update o => exact (updateOrder_obeys o s).bind fun _ _ _ _ => Obeys.pure trivial
  | delete id => exact (deleteOrder_obeys id s).bind fun _ _ _ _ => Obeys.pure trivial
  | appendHistory id status => exact (appendHistory_obeys id status s).bind fun _ _ _ _ => Obeys.pure trivial
  | appendEvent e =>
    have appended : Obeys Outside (reachedAt .txSaveEvent (onStore fun _ => OrderStore.appendEvent e)) s
        fun _ _ => True := Obeys.call (by decide) fun _ _ _ _ => trivial
    exact appended.bind fun _ _ _ _ => Obeys.pure trivial

namespace Body

theorem act_obeys {α : Type} (b : Body α) (s : Site Memory κ) : Obeys Outside b.act s fun _ _ => True := by
  induction b generalizing s with
  | stop r => exact ⟨⟨rfl, rfl, rfl, rfl, rfl⟩, fun _ _ => trivial⟩
  | time next ih => exact Obeys.readClock.bind fun t s₁ _ _ => ih t s₁
  | eventId next ih => exact Obeys.newEventId.bind fun id s₁ _ _ => ih id s₁
  | call c next ih => exact (c.act_obeys s).attempt.bind fun r s₁ _ _ => ih r s₁
  | savepoint inner next innerIh ih =>
    have saved : Obeys Outside (attempt (PickupPoint.savepoint inner.act)) s _ :=
      attempt_savepoint_obeys fun s' _ => innerIh s'
    exact saved.bind fun r s₁ _ _ => ih r s₁

theorem faultless_after {α : Type} (b : Body α) {s : Site Memory κ} (hs : s.faults = []) : (b.act s).2.faults = [] :=
  (b.act_obeys s).law.faultless hs

/-- A body that answers leaves what the calls that it keeps leave. Of one that is refused nothing is known, for what
it wrote is undone by the scope around it. -/
theorem leaves_kept {α : Type} (b : Body α) {s : Site Memory κ} (hs : s.faults = []) {a : α}
    (ha : (b.act s).1 = .ok a) {m : Memory} (hm : s.store.undated = m.undated) (now : Instant) :
    (b.act s).2.store.undated = (m.made now (b.kept s)).undated := by
  induction b generalizing s m with
  | stop r => exact hm
  | time next ih => exact @ih s.clock.current (readClock s).2 hs a ha m hm
  | eventId next ih => exact @ih (Uuid.ofRandom s.eventIds) (newEventId s).2 hs a ha m hm
  | call c next ih =>
    have made := c.attempt_act hs
    have first : ({ s with store := (c.access s.clock.current s.store).2 } : Site Memory κ).store.undated =
        (c.access now m).2.undated := c.access_undated hm _ _
    have run : (call c next).act s = (next (c.access s.clock.current s.store).1).act
        { s with store := (c.access s.clock.current s.store).2 } := by
      rw [act, bind_run, made]
    have keeps : (call c next).kept s = c :: (next (c.access s.clock.current s.store).1).kept
        { s with store := (c.access s.clock.current s.store).2 } := by
      rw [kept, made]
    rw [run] at ha ⊢
    rw [keeps]
    exact ih _ (s := { s with store := (c.access s.clock.current s.store).2 }) hs ha first
  | savepoint inner next innerIh ih =>
    have saved := savepoint_faultless hs (inner.faultless_after hs)
    have left := inner.faultless_after hs
    rw [act, bind_run] at ha ⊢
    rw [kept]
    rcases hr : inner.act s with ⟨(e | text) | b, s'⟩ <;> rw [hr] at saved left <;> rw [saved] at ha ⊢
    · -- what the savepoint wrote is undone, so the next calls start where it did
      exact ih (.error e) (s := { s' with store := s.store }) left ha hm
    · cases ha
    · have kept : s'.store.undated = (m.made now (inner.kept s)).undated := by
        have := innerIh hs (by rw [hr]) hm
        rwa [hr] at this
      have rest := ih (.ok (some b)) (s := s') left ha kept
      rw [Memory.made, List.foldl_append]
      exact rest

end Body

/-! ## Whole transactions -/

/-- what the transaction of a body leaves -/
structure Nested {α : Type} (b : Body α) (s s' : Site Memory κ) : Prop where
  /-- what the calls that are kept leave, wherever they are made on the same store, times aside -/
  kept : ∀ a, (b.act s).1 = .ok a → ∀ s₀ : Site Memory κ, s₀.faults = [] → s₀.store = s.store →
    ∃ s₁, transaction (inTurn (b.kept s)) s₀ = (.ok (), s₁) ∧ s'.store.undated = s₁.store.undated
  /-- nothing that a later call could find: only time has passed, and event ids are taken -/
  undone : ∀ halt, (b.act s).1 = .error halt →
    s' = { s with clock := { s.clock with taken := s'.clock.taken }, eventIds := s'.eventIds }

/-- **Nested transactions.** For every store and every body, savepoints in it nested to any depth and each scope
ending in any way: the transaction ends as the body does. If that is with an answer, it leaves what the calls outside
of refused savepoints leave on their own; if it is with a refusal or a panic, it leaves nothing. -/
theorem transaction_of_body {α : Type} (b : Body α) (s : Site Memory κ) (hs : s.faults = []) :
    ∃ s', transaction b.act s = ((b.act s).1, s') ∧ Nested b s s' := by
  have left := b.faultless_after hs
  have outside := (b.act_obeys s).law
  have run := transaction_faultless hs left
  have kept := fun a ha now => b.leaves_kept hs (a := a) ha (m := s.store) rfl now
  rcases hr : b.act s with ⟨halt | a, s'⟩ <;> rw [hr] at run outside kept left
  · refine ⟨{ s' with store := s.store }, run, ⟨?_, fun _ _ => ?_⟩⟩
    · rw [hr]; nofun
    · exact Outside.site (Writes.write s.store outside) hs
  · refine ⟨s', run, ⟨fun _ _ s₀ hs₀ hstore => ?_, ?_⟩⟩
    · have alone := inTurn_run hs₀ (b.kept s)
      refine ⟨_, (transaction_faultless hs₀ (by rw [alone]; exact hs₀)).trans (by rw [alone]), ?_⟩
      rw [hstore]
      exact kept a rfl _
    · rw [hr]; nofun

/-- an order with an id, as a courier hands it over -/
def parcel (id : Nat) : Order := ⟨id, 7, .expects, ⟨60, 0⟩, .bare, 1, .ofNat 10⟩

/-- Parcel 2 is refused after it was written, two savepoints deep, and the body goes on. -/
def secondThoughts : Body Unit :=
  .call (.insert (parcel 1)) fun _ =>
  .savepoint
    (.call (.appendHistory 1 .expects) fun _ =>
      .savepoint
        (.call (.insert (parcel 2)) fun _ =>
          .call (.appendHistory 2 .expects) fun _ => .stop (α := Unit) (.error (.error .weightTooHeavy)))
        fun _ => .stop (α := Unit) (.ok ()))
    fun _ =>
  .call (.appendHistory 3 .expects) fun _ => .stop (.ok ())

/-- a shelf without parcels -/
def emptyShelf : Site Memory TimedCache where
  clock := .ticking ⟨0, 0⟩
  eventIds := 0
  store := .empty
  cache := .empty
  cacheTtl := 60
  metrics := .empty
  faults := []

/-- The entry after the refused savepoint takes the id that was given back. -/
theorem transaction_of_second_thoughts :
    emptyShelf.faults = [] ∧ ∃ s', transaction secondThoughts.act emptyShelf = (.ok (), s') ∧
      Nested secondThoughts emptyShelf s' ∧ s'.store.orders.rows.map (·.id) = [1] ∧
        s'.store.history.map (fun entry => (entry.id, entry.orderId)) = [(1, 1), (2, 3)] := by
  obtain ⟨s', hr, nested⟩ := transaction_of_body secondThoughts emptyShelf rfl
  have answers : (secondThoughts.act emptyShelf).1 = .ok () := by decide +kernel
  have answer : transaction secondThoughts.act emptyShelf = (.ok (), s') := by rw [hr, answers]
  have left : s' = (transaction secondThoughts.act emptyShelf).2 := by rw [answer]
  refine ⟨rfl, s', answer, nested, ?_, ?_⟩ <;> rw [left] <;> decide +kernel

end PickupPoint
