/-
Two stores side by side.

A `Simulation` relates the stores between transactions (`rest`) and inside of one (`work`), and says what is common to
what they answer. It is `Sound` if every operation of a store keeps it and has alike answers on both sides. The ids that
are stored, in the order in which they came, go along with both relations. A refusal inside a transaction need not keep
the stores related, as long as a rollback brings them back together: what goes on inside since the stores stood side by
side is `since`.

Calls on both stores then go together, and so do scopes of work that does (`Sound.savepoint`, `Sound.transaction`).
-/
import PickupPoint.Service.Accept
import PickupPoint.Service.Process
import PickupPoint.Proofs.SideBySide

namespace PickupPoint

open Act

/-- the same but for the price -/
structure Order.Alike (price : Decimal → Decimal → Prop) (o o' : Order) : Prop where
  id : o'.id = o.id
  userId : o'.userId = o.userId
  status : o'.status = o.status
  expiresAt : o'.expiresAt = o.expiresAt
  package : o'.package = o.package
  weight : o'.weight = o.weight
  price : price o.price o'.price

/-- the event without its id -/
def Event.nameless (e : Event) : Event := { e with eventId := ⟨0⟩ }

structure Simulation (σ τ : Type) where
  /-- between transactions -/
  rest : List Nat → σ → τ → Prop
  /-- inside a transaction, as long as none has come in it or later -/
  work : (untouched : Bool) → List Nat → σ → τ → Prop
  /-- what may be of the stores, whatever was refused, since they stood side by side in a transaction -/
  since : σ → τ → σ → τ → Prop
  /-- times that the clock may show -/
  time : Instant → Prop
  /-- ids that may be asked for -/
  fits : Nat → Prop
  /-- parcels that may be handed over -/
  takes : Acceptance → Prop
  /-- orders that may be stored -/
  stores : Order → Prop
  /-- prices of one order on both sides -/
  price : Decimal → Decimal → Prop
  /-- lists of entries of the history on both sides -/
  told : List HistoryEntry → List HistoryEntry → Prop
  /-- lists of all orders on both sides -/
  listed : List Order → List Order → Prop

namespace Simulation

variable {σ τ κ ν α β : Type}

/-- Both stores answer, or refuse for one cause, and stay as they are. -/
def Reads (A : α → β → Prop) (m : σ) (n : τ) (x : Except Error α × σ) (y : Except Error β × τ) : Prop :=
  Match (fun a b m' n' => A a b ∧ m' = m ∧ n' = n) (fun m' n' => m' = m ∧ n' = n) x.1 y.1 x.2 y.2

variable (S : Simulation σ τ)

/-- between transactions, and as they were -/
def Still (ids : List Nat) (m₀ : σ) (n₀ : τ) (m : σ) (n : τ) : Prop := S.rest ids m n ∧ m = m₀ ∧ n = n₀

/-- inside a transaction, and related to where it began -/
def inside (m₀ : σ) (n₀ : τ) (untouched : Bool) (ids : List Nat) (m : σ) (n : τ) : Prop :=
  S.work untouched ids m n ∧ S.since m₀ n₀ m n

/-- Both stores answer, or refuse for one cause, inside a transaction. -/
def Moves (Q : α → β → σ → τ → Prop) (m : σ) (n : τ) (x : Except Error α × σ) (y : Except Error β × τ) : Prop :=
  Match (fun a b m' n' => Q a b m' n' ∧ S.since m n m' n') (S.since m n) x.1 y.1 x.2 y.2

/-- Every operation keeps what relates the stores, and is answered alike. -/
structure Sound [OrderStore σ] [OrderStore τ] : Prop where
  since_refl {k ids m n} : S.work k ids m n → S.since m n m n
  since_trans {m₀ n₀ m n m' n'} : S.since m₀ n₀ m n → S.since m n m' n' → S.since m₀ n₀ m' n'
  takes_fits {a} : S.takes a → S.fits a.orderId
  stores_fits {o} : S.stores o → S.fits o.id
  stores_taken {a : Acceptance} {o : Order} : S.takes a → o.id = a.orderId → o.userId = a.userId →
    o.expiresAt = a.expiresAt → o.checkPrice = .ok () → S.stores o
  stores_after {o o' : Order} {action now t} : S.stores o → S.time now → o.after action now = .ok (o', t) → S.stores o'
  order {ids m n id} : S.rest ids m n → S.fits id →
    Reads (Order.Alike S.price) m n (OrderStore.order id m) (OrderStore.order id n)
  orders {ids m n} : S.rest ids m n → Reads S.listed m n (OrderStore.orders m) (OrderStore.orders n)
  history {ids m n page count} : S.rest ids m n →
    Reads S.told m n (OrderStore.history page count m) (OrderStore.history page count n)
  orderHistory {ids m n id} : S.rest ids m n → S.fits id →
    Reads S.told m n (OrderStore.orderHistory id m) (OrderStore.orderHistory id n)
  begin {ids m n now} : S.rest ids m n → S.time now →
    Match
      (fun _ _ m₁ n₁ => S.work true ids m₁ n₁ ∧ ∀ m₂ n₂, S.since m₁ n₁ m₂ n₂ →
        S.rest ids (OrderStore.rollback m m₂) (OrderStore.rollback n n₂) ∧
        ∀ k ids', S.work k ids' m₂ n₂ →
          Match (fun _ _ => S.rest ids') (S.rest ids) (OrderStore.commit m m₂).1 (OrderStore.commit n n₂).1
            (OrderStore.commit m m₂).2 (OrderStore.commit n n₂).2)
      (S.rest ids) (OrderStore.begin now m).1 (OrderStore.begin now n).1 (OrderStore.begin now m).2
      (OrderStore.begin now n).2
  savepoint {k ids m n} : S.work k ids m n →
    Match
      (fun _ _ m₁ n₁ => S.work k ids m₁ n₁ ∧ S.since m n m₁ n₁ ∧ ∀ m₂ n₂, S.since m₁ n₁ m₂ n₂ →
        S.inside m n k ids (OrderStore.rollbackTo m m₂) (OrderStore.rollbackTo n n₂) ∧
        (S.work k ids m₂ n₂ → Match (fun _ _ => S.inside m n k ids) (S.inside m n k ids)
          (OrderStore.release m m₂).1 (OrderStore.release n n₂).1 (OrderStore.release m m₂).2
          (OrderStore.release n n₂).2))
      (S.inside m n k ids) (OrderStore.savepoint m).1 (OrderStore.savepoint n).1 (OrderStore.savepoint m).2
      (OrderStore.savepoint n).2
  find {k ids m n id} : S.work k ids m n → S.fits id →
    S.Moves (fun o o' m' n' => (o.Alike S.price o' ∧ S.stores o) ∧ S.work k ids m' n') m n (OrderStore.find id m)
      (OrderStore.find id n)
  insert {ids m n o now} : S.work true ids m n → S.stores o → S.time now →
    S.Moves (fun _ _ => S.work false (ids ++ [o.id])) m n (OrderStore.insert o now m) (OrderStore.insert o now n)
  update {k ids m n now} {o o' : Order} : S.work k ids m n → S.stores o → o.Alike S.price o' → S.time now →
    S.Moves (fun _ _ => S.work k ids) m n (OrderStore.update o now m) (OrderStore.update o' now n)
  delete {k ids m n id} : S.work k ids m n → S.fits id →
    S.Moves (fun _ _ => S.work k (ids.filter (· ≠ id))) m n (OrderStore.delete id m) (OrderStore.delete id n)
  appendHistory {k ids m n id status now} : S.work k ids m n → S.fits id → S.time now →
    S.Moves (fun _ _ => S.work k ids) m n (OrderStore.appendHistory id status now m)
      (OrderStore.appendHistory id status now n)
  appendEvent {k ids m n} {e e' : Event} : S.work k ids m n → e'.nameless = e.nameless →
    S.Moves (fun _ _ => S.work k ids) m n (OrderStore.appendEvent e m) (OrderStore.appendEvent e' n)

namespace Sound

variable {S} [OrderStore σ] [OrderStore τ] (h : S.Sound) {s₀ : Site σ κ} {s₀' : Site τ ν}

/-! ## Reads -/

section Reads

variable {ids : List Nat}

omit [OrderStore σ] [OrderStore τ] in
theorem read {m₀ : σ} {n₀ : τ} {p : Point} (hp : ¬ p.IsOfCache) {A : α → β → Prop} {op : Access σ α}
    {op' : Access τ β} (hop : S.rest ids m₀ n₀ → Reads A m₀ n₀ (op m₀) (op' n₀)) :
    Together (Near S.time s₀ s₀' (S.Still ids m₀ n₀)) (reachedAt p (onStore fun _ => op))
      (reachedAt p (onStore fun _ => op')) (fun a b s s' => A a b ∧ Near S.time s₀ s₀' (S.Still ids m₀ n₀) s s')
      (Near S.time s₀ s₀' (S.Still ids m₀ n₀)) := by
  have called : Together (Near S.time s₀ s₀' (S.Still ids m₀ n₀)) (reachedAt p (onStore fun _ => op))
      (reachedAt p (onStore fun _ => op')) (fun a b => Near S.time s₀ s₀' fun m n => A a b ∧ S.Still ids m₀ n₀ m n)
      (Near S.time s₀ s₀' (S.Still ids m₀ n₀)) := by
    refine Near.call hp fun now m n _ ⟨rest, hm, hn⟩ => ?_
    subst hm hn
    exact (hop rest).mono (fun a b m' n' ⟨ha, hm, hn⟩ => ⟨ha, hm ▸ hn ▸ rest, hm, hn⟩)
      fun m' n' ⟨hm, hn⟩ => ⟨hm ▸ hn ▸ rest, hm, hn⟩
  exact called.weaken fun a b s s' near => ⟨near.stores.1, near.mono fun _ _ => And.right⟩

include h

theorem storedOrder_still {m₀ : σ} {n₀ : τ} {id : Nat} (fits : S.fits id) :
    Together (Near S.time s₀ s₀' (S.Still ids m₀ n₀)) (storedOrder id) (storedOrder id)
      (fun o o' s s' => o.Alike S.price o' ∧ Near S.time s₀ s₀' (S.Still ids m₀ n₀) s s')
      (Near S.time s₀ s₀' (S.Still ids m₀ n₀)) :=
  read (by decide) fun rest => h.order rest fits

theorem storedOrders_still {m₀ : σ} {n₀ : τ} :
    Together (Near S.time s₀ s₀' (S.Still ids m₀ n₀)) storedOrders storedOrders
      (fun l l' s s' => S.listed l l' ∧ Near S.time s₀ s₀' (S.Still ids m₀ n₀) s s')
      (Near S.time s₀ s₀' (S.Still ids m₀ n₀)) :=
  read (by decide) fun rest => h.orders rest

theorem storedHistory_still {m₀ : σ} {n₀ : τ} (page count : Nat) :
    Together (Near S.time s₀ s₀' (S.Still ids m₀ n₀)) (storedHistory page count) (storedHistory page count)
      (fun l l' s s' => S.told l l' ∧ Near S.time s₀ s₀' (S.Still ids m₀ n₀) s s')
      (Near S.time s₀ s₀' (S.Still ids m₀ n₀)) :=
  read (by decide) fun rest => h.history rest

end Reads

/-! ## Calls inside a transaction -/

section Calls

include h

variable {m₀ : σ} {n₀ : τ} {k : Bool} {ids : List Nat}

theorem call {p : Point} (hp : ¬ p.IsOfCache) {op : Instant → Access σ α} {op' : Instant → Access τ β}
    {Q : α → β → σ → τ → Prop}
    (hop : ∀ now m n, S.time now → S.work k ids m n → S.Moves Q m n (op now m) (op' now n)) :
    Together (Near S.time s₀ s₀' (S.inside m₀ n₀ k ids)) (reachedAt p (onStore op)) (reachedAt p (onStore op'))
      (fun a b => Near S.time s₀ s₀' fun m n => Q a b m n ∧ S.since m₀ n₀ m n)
      (Near S.time s₀ s₀' (S.since m₀ n₀)) :=
  Near.call hp fun now m n time ⟨work, since⟩ => (hop now m n time work).mono
    (fun _ _ _ _ moved => ⟨moved.1, h.since_trans since moved.2⟩) fun _ _ => h.since_trans since

theorem findOrder_inside {id : Nat} (fits : S.fits id) :
    Together (Near S.time s₀ s₀' (S.inside m₀ n₀ k ids)) (findOrder id) (findOrder id)
      (fun o o' s s' => (o.Alike S.price o' ∧ S.stores o) ∧ Near S.time s₀ s₀' (S.inside m₀ n₀ k ids) s s')
      (Near S.time s₀ s₀' (S.since m₀ n₀)) :=
  (h.call (by decide) fun _ _ _ _ work => h.find work fits).weaken fun _ _ _ _ near =>
    ⟨near.stores.1.1, near.mono fun _ _ hs => ⟨hs.1.2, hs.2⟩⟩

theorem insertOrder_inside {o : Order} (stores : S.stores o) :
    Together (Near S.time s₀ s₀' (S.inside m₀ n₀ true ids)) (insertOrder o) (insertOrder o)
      (fun _ _ => Near S.time s₀ s₀' (S.inside m₀ n₀ false (ids ++ [o.id]))) (Near S.time s₀ s₀' (S.since m₀ n₀)) :=
  h.call (by decide) fun _ _ _ time work => h.insert work stores time

theorem updateOrder_inside {o o' : Order} (stores : S.stores o) (alike : o.Alike S.price o') :
    Together (Near S.time s₀ s₀' (S.inside m₀ n₀ k ids)) (updateOrder o) (updateOrder o')
      (fun _ _ => Near S.time s₀ s₀' (S.inside m₀ n₀ k ids)) (Near S.time s₀ s₀' (S.since m₀ n₀)) :=
  h.call (by decide) fun _ _ _ time work => h.update work stores alike time

theorem deleteOrder_inside {id : Nat} (fits : S.fits id) :
    Together (Near S.time s₀ s₀' (S.inside m₀ n₀ k ids)) (deleteOrder id) (deleteOrder id)
      (fun _ _ => Near S.time s₀ s₀' (S.inside m₀ n₀ k (ids.filter (· ≠ id)))) (Near S.time s₀ s₀' (S.since m₀ n₀)) :=
  h.call (by decide) fun _ _ _ _ work => h.delete work fits

theorem appendHistory_inside {id : Nat} (status : Status) (fits : S.fits id) :
    Together (Near S.time s₀ s₀' (S.inside m₀ n₀ k ids)) (PickupPoint.appendHistory id status)
      (PickupPoint.appendHistory id status)
      (fun _ _ => Near S.time s₀ s₀' (S.inside m₀ n₀ k ids)) (Near S.time s₀ s₀' (S.since m₀ n₀)) :=
  h.call (by decide) fun _ _ _ time work => h.appendHistory work fits time

/-- Events of one order may have different ids on both sides. -/
theorem appendEvent_inside (t : EventType) (actor : Actor) {o o' : Order} (id : o'.id = o.id)
    (userId : o'.userId = o.userId) (status : Status) :
    Together (Near S.time s₀ s₀' (S.inside m₀ n₀ k ids)) (PickupPoint.appendEvent t actor o status)
      (PickupPoint.appendEvent t actor o' status)
      (fun _ _ => Near S.time s₀ s₀' (S.inside m₀ n₀ k ids)) (Near S.time s₀ s₀' (S.since m₀ n₀)) := by
  refine Near.newEventId.bind fun eventId eventId' => Near.readClock.bind fun now now' => .given ?_
  rintro ⟨rfl, -⟩
  refine h.call (by decide) fun _ _ _ _ work => h.appendEvent work ?_
  simp [Event.nameless, Event.about, id, userId]

end Calls

/-! ## Scopes -/

omit [OrderStore σ] [OrderStore τ] in
/-- An arrival at the end of the work of a scope. -/
theorem closedAt_near {P : Site σ κ → Site τ ν → Prop} {Q : α → β → Site σ κ → Site τ ν → Prop}
    {E : Site σ κ → Site τ ν → Prop} {p : Point} (hp : ¬ p.IsOfCache) (after : Bool) {act : Act σ κ α}
    {act' : Act τ ν β} (work : Together P act act' Q E)
    (faults : ∀ a b s s', Q a b s s' → Fault.OfCache s.faults ∧ Fault.OfCache s'.faults) :
    Together P (closedAt p after act) (closedAt p after act') Q E := by
  refine work.bind fun a b s s' hq => ⟨.ok a, .ok b, s, s', ?_, ?_, .ok hq⟩
  · rw [bind_run, Near.arrive hp after (faults a b s s' hq).1]; rfl
  · rw [bind_run, Near.arrive hp after (faults a b s s' hq).2]; rfl

/-- A savepoint that no fault reaches. -/
theorem savepoint_unmet {s : Site σ κ} (faults : Fault.OfCache s.faults) (act : Act σ κ α) :
    PickupPoint.savepoint act s = match OrderStore.savepoint s.store with
      | (.error e, m) => (.error (.error e), { s with store := m })
      | (.ok (), m) => match closedAt .txSavepoint true act { s with store := m } with
        | (.ok a, s₁) => match OrderStore.release s.store s₁.store with
          | (.ok (), m₁) => (.ok (some a), { s₁ with store := m₁ })
          | (.error e, m₁) => (.error (.error e), { s₁ with store := m₁ })
        | (.error (.error e), s₁) =>
          (.error (.error e), { s₁ with store := OrderStore.rollbackTo s.store s₁.store })
        | (.error (.panic text), s₁) => (.error (.panic text), s₁) := by
  unfold PickupPoint.savepoint
  rw [bind_run, Near.arrive (by decide) false faults]
  show ((inSavepoint (closedAt .txSavepoint true act) id s).1.2.map some,
    (inSavepoint (closedAt .txSavepoint true act) id s).2) = _
  dsimp only [inSavepoint, atStore, id]
  rcases (OrderStore.savepoint s.store : Except Error Unit × σ) with ⟨_ | _, m⟩
  · rfl
  dsimp only
  rcases closedAt .txSavepoint true act { s with store := m } with ⟨(_ | _) | a, s₁⟩
  · rfl
  · rfl
  · dsimp only
    rcases (OrderStore.release s.store s₁.store : Except Error Unit × σ) with ⟨_ | _, _⟩ <;> rfl

/-- A transaction that no fault reaches. -/
theorem transaction_unmet {s : Site σ κ} (faults : Fault.OfCache s.faults) (act : Act σ κ α) :
    transaction act s = match OrderStore.begin s.clock.current s.store with
      | (.error e, m) => (.error (.error e), { s with store := m })
      | (.ok (), m) => match closedAt .commit false act { s with store := m } with
        | (.ok a, s₁) => match OrderStore.commit s.store s₁.store with
          | (.ok (), m₁) => (.ok a, { s₁ with store := m₁ })
          | (.error e, m₁) => (.error (.error e), { s₁ with store := m₁ })
        | (.error halt, s₁) => (.error halt, { s₁ with store := OrderStore.rollback s.store s₁.store }) := by
  unfold transaction
  rw [bind_run, Near.arrive (by decide) false faults]
  show ((inTransaction (closedAt .commit false act) id s).1.2,
    (inTransaction (closedAt .commit false act) id s).2) = _
  dsimp only [inTransaction, atStore, id]
  rcases (OrderStore.begin s.clock.current s.store : Except Error Unit × σ) with ⟨_ | _, m⟩
  · rfl
  dsimp only
  rcases closedAt .commit false act { s with store := m } with ⟨_ | a, s₁⟩
  · rfl
  · dsimp only
    rcases (OrderStore.commit s.store s₁.store : Except Error Unit × σ) with ⟨_ | _, _⟩ <;> rfl

include h

/-- A savepoint whose work was refused is as if it had not been. -/
theorem savepoint_inside {m₀ : σ} {n₀ : τ} {k : Bool} {ids : List Nat} {act : Act σ κ α} {act' : Act τ ν α}
    (work : ∀ m n, Together (Near S.time s₀ s₀' (S.inside m n k ids)) act act'
      (fun a b s s' => b = a ∧ Near S.time s₀ s₀' (S.inside m n k ids) s s') (Near S.time s₀ s₀' (S.since m n))) :
    Together (Near S.time s₀ s₀' (S.inside m₀ n₀ k ids)) (PickupPoint.savepoint act) (PickupPoint.savepoint act')
      (fun a b s s' => b = a ∧ Near S.time s₀ s₀' (S.inside m₀ n₀ k ids) s s')
      (Near S.time s₀ s₀' (S.inside m₀ n₀ k ids)) := by
  intro s s' near
  have reaches : ∀ {m n}, S.inside s.store s'.store k ids m n → S.inside m₀ n₀ k ids m n := fun hi =>
    ⟨hi.1, h.since_trans near.stores.2 hi.2⟩
  have opened := h.savepoint near.stores.1
  rw [savepoint_unmet near.faults, savepoint_unmet near.faults']
  generalize (OrderStore.savepoint s.store : Except Error Unit × σ) = x at opened ⊢
  obtain ⟨r, m⟩ := x
  generalize (OrderStore.savepoint s'.store : Except Error Unit × τ) = x at opened ⊢
  obtain ⟨r', n⟩ := x
  cases opened with
  | error back => exact ⟨.error _, .error _, _, _, rfl, rfl, .error (near.restored (reaches back))⟩
  | ok opened =>
    obtain ⟨work₁, -, ends⟩ := opened
    obtain ⟨r, r', s₁, s₁', hr, hr', done⟩ := closedAt_near (p := .txSavepoint) (by decide) true (work m n)
      (fun _ _ _ _ worked => ⟨worked.2.faults, worked.2.faults'⟩) _ _ (near.restored ⟨work₁, h.since_refl work₁⟩)
    dsimp only
    rw [hr, hr']
    cases done with
    | error torn => exact ⟨.error _, .error _, _, _, rfl, rfl, .error (torn.restored (reaches (ends _ _ torn.stores).1))⟩
    | @ok a _ _ _ worked =>
      obtain ⟨rfl, worked⟩ := worked
      obtain ⟨work₂, since₂⟩ := worked.stores
      have released := (ends _ _ since₂).2 work₂
      dsimp only [outcome, Except.mapError]
      generalize (OrderStore.release s.store s₁.store : Except Error Unit × σ) = x at released ⊢
      obtain ⟨r, m'⟩ := x
      generalize (OrderStore.release s'.store s₁'.store : Except Error Unit × τ) = x at released ⊢
      obtain ⟨r', n'⟩ := x
      cases released with
      | ok back => exact ⟨.ok (some _), .ok (some _), _, _, rfl, rfl, .ok ⟨rfl, worked.restored (reaches back)⟩⟩
      | error back => exact ⟨.error _, .error _, _, _, rfl, rfl, .error (worked.restored (reaches back))⟩

/-- A transaction whose work was refused is as if it had not been. -/
theorem transaction_rest {ids : List Nat} {act : Act σ κ α} {act' : Act τ ν β} {Q : α → β → List Nat → Prop}
    (work : ∀ m n, Together (Near S.time s₀ s₀' (S.inside m n true ids)) act act'
      (fun a b => Near S.time s₀ s₀' fun m' n' => ∃ k ids', Q a b ids' ∧ S.inside m n k ids' m' n')
      (Near S.time s₀ s₀' (S.since m n))) :
    Together (Near S.time s₀ s₀' (S.rest ids)) (transaction act) (transaction act')
      (fun a b => Near S.time s₀ s₀' fun m n => ∃ ids', Q a b ids' ∧ S.rest ids' m n)
      (Near S.time s₀ s₀' (S.rest ids)) := by
  intro s s' near
  have opened := h.begin near.stores (near.timely s.clock.taken)
  change Match _ _ (OrderStore.begin s.clock.current _).1 (OrderStore.begin s.clock.current _).1
    (OrderStore.begin s.clock.current _).2 (OrderStore.begin s.clock.current _).2 at opened
  have same : s'.clock.current = s.clock.current := by rw [near.clock]
  rw [transaction_unmet near.faults, transaction_unmet near.faults', same]
  generalize (OrderStore.begin s.clock.current s.store : Except Error Unit × σ) = x at opened ⊢
  obtain ⟨r, m⟩ := x
  generalize (OrderStore.begin s.clock.current s'.store : Except Error Unit × τ) = x at opened ⊢
  obtain ⟨r', n⟩ := x
  cases opened with
  | error back => exact ⟨.error _, .error _, _, _, rfl, rfl, .error (near.restored back)⟩
  | ok opened =>
    obtain ⟨work₁, ends⟩ := opened
    obtain ⟨r, r', s₁, s₁', hr, hr', done⟩ := closedAt_near (p := .commit) (by decide) false (work m n)
      (fun _ _ _ _ worked => ⟨worked.faults, worked.faults'⟩) _ _ (near.restored ⟨work₁, h.since_refl work₁⟩)
    dsimp only
    rw [hr, hr']
    cases done with
    | error torn => exact ⟨.error _, .error _, _, _, rfl, rfl, .error (torn.restored (ends _ _ torn.stores).1)⟩
    | @ok a b _ _ worked =>
      obtain ⟨k, ids', related, work₂, since₂⟩ := worked.stores
      have committed := (ends _ _ since₂).2 k ids' work₂
      dsimp only [outcome, Except.mapError]
      generalize (OrderStore.commit s.store s₁.store : Except Error Unit × σ) = x at committed ⊢
      obtain ⟨r, m'⟩ := x
      generalize (OrderStore.commit s'.store s₁'.store : Except Error Unit × τ) = x at committed ⊢
      obtain ⟨r', n'⟩ := x
      cases committed with
      | ok back => exact ⟨.ok a, .ok b, _, _, rfl, rfl, .ok (worked.restored ⟨ids', related, back⟩)⟩
      | error back => exact ⟨.error _, .error _, _, _, rfl, rfl, .error (worked.restored back)⟩

end Sound

end Simulation

end PickupPoint
