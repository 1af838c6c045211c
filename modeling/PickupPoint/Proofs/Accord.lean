/-
The service on two stores at once.

Where a sound simulation relates two stores, whatever the service does with both goes together: a check comes to the same
order (`checkAcceptance_still`), a parcel is stored or taken back on both or on none (`storeAccepted_rest`,
`storeReclaimed_rest`), a batch does the same ids (`batch_rest`), and questions are answered from alike lists
(`asked_still`).
-/
import PickupPoint.Service.Query
import PickupPoint.Proofs.Simulation

namespace PickupPoint

open Act

/-- Alike orders allow the same actions, and stay alike. -/
theorem Order.Alike.after {price : Decimal → Decimal → Prop} {o o' : Order} (h : o.Alike price o') (action : Action)
    (now : Instant) :
    (∃ p p' t, o.after action now = .ok (p, t) ∧ o'.after action now = .ok (p', t) ∧ p.Alike price p') ∨
      ∃ e, o.after action now = .error e ∧ o'.after action now = .error e := by
  cases action with
  | unspecified => exact .inr ⟨_, rfl, rfl⟩
  | issue =>
    simp only [Order.after, h.status]
    cases hs : o.status with
    | expects => exact .inl ⟨_, _, _, rfl, rfl, { h with status := rfl, expiresAt := rfl }⟩
    | accepted | returned | deleted => exact .inr ⟨_, rfl, rfl⟩
  | takeBack =>
    simp only [Order.after, h.status]
    by_cases hs : o.status = .accepted
    · rw [if_pos hs, if_pos hs]
      exact .inl ⟨_, _, _, rfl, rfl, { h with status := rfl }⟩
    · rw [if_neg hs, if_neg hs]
      exact .inr ⟨_, rfl, rfl⟩

/-! ## Answers from all orders -/

/-- the orders of a user that a listing asks for -/
def matching (userId : Nat) (inPickupPoint : Bool) (orders : List Order) : List Order :=
  orders.filter fun o => o.userId = userId && (!inPickupPoint || o.status.isInPickupPoint)

/-- a page of a listing and how many there are -/
def listing (userId : Nat) (inPickupPoint : Bool) (last page limit : Nat) (orders : List Order) : List Order × Nat :=
  (pageOf (lastOf (matching userId inPickupPoint orders) last) page limit,
    (matching userId inPickupPoint orders).length % bitLimit countBits)

/-- a page of the returned orders, or all of them -/
def returnsListing (page limit : Nat) (orders : List Order) : List Order :=
  if limit = 0 then orders.filter (·.status = .returned) else pageOf (orders.filter (·.status = .returned)) page limit

/-- the orders of a user after a cursor, and the next cursor -/
def scrolling (userId cursor limit : Nat) (orders : List Order) : List Order × Nat :=
  scrollFrom (·.id) ((orders.filter (·.userId = userId)).mergeSort (·.id ≤ ·.id)) cursor limit

namespace Simulation.Sound

variable {σ τ κ ν : Type} {S : Simulation σ τ} [OrderStore σ] [OrderStore τ] (h : S.Sound) {s₀ : Site σ κ}
  {s₀' : Site τ ν}

/-! ## Work inside a transaction -/

section Inside

variable {m₀ : σ} {n₀ : τ} {k : Bool} {ids : List Nat}

omit [OrderStore σ] [OrderStore τ] in
theorem since_of_inside {s : Site σ κ} {s' : Site τ ν} (near : Near S.time s₀ s₀' (S.inside m₀ n₀ k ids) s s') :
    Near S.time s₀ s₀' (S.since m₀ n₀) s s' :=
  near.mono fun _ _ => And.right

include h

theorem insertNew_inside {o : Order} (stores : S.stores o) :
    Together (Near S.time s₀ s₀' (S.inside m₀ n₀ true ids)) (insertNew o) (insertNew o)
      (fun _ _ => Near S.time s₀ s₀' (S.inside m₀ n₀ false (ids ++ [o.id]))) (Near S.time s₀ s₀' (S.since m₀ n₀)) := by
  refine (h.insertOrder_inside stores).attempt.bind fun r r' => .matched ?_ ?_
  · rintro _ _ rfl rfl
    exact .pure fun _ _ => id
  · rintro e rfl rfl
    cases e <;> exact .refuse _ fun _ _ => id

/-- the work of storing an order that is accepted -/
theorem acceptWork_inside {o : Order} (stores : S.stores o) :
    Together (Near S.time s₀ s₀' (S.inside m₀ n₀ true ids))
      (do
        insertNew o
        PickupPoint.appendHistory o.id o.status
        PickupPoint.appendEvent .orderAccepted (.courier o.userId) o o.status)
      (do
        insertNew o
        PickupPoint.appendHistory o.id o.status
        PickupPoint.appendEvent .orderAccepted (.courier o.userId) o o.status)
      (fun _ _ => Near S.time s₀ s₀' (S.inside m₀ n₀ false (ids ++ [o.id]))) (Near S.time s₀ s₀' (S.since m₀ n₀)) := by
  refine (h.insertNew_inside stores).bind fun _ _ => ?_
  refine (h.appendHistory_inside o.status (h.stores_fits stores)).bind fun _ _ => ?_
  exact h.appendEvent_inside _ _ rfl rfl _

omit [OrderStore σ] [OrderStore τ] in
omit h in
/-- Alike orders may be taken back at the same times. -/
theorem checkReclaim_inside {o o' : Order} (alike : o.Alike S.price o') :
    Together (Near S.time s₀ s₀' (S.inside m₀ n₀ k ids)) (checkReclaim o) (checkReclaim o')
      (fun _ _ => Near S.time s₀ s₀' (S.inside m₀ n₀ k ids)) (Near S.time s₀ s₀' (S.since m₀ n₀)) := by
  have timed : Together (Near S.time s₀ s₀' (S.inside m₀ n₀ k ids))
      (do
        let now ← readClock
        if now < o.expiresAt then Act.refuse .storageNotExpired)
      (do
        let now ← readClock
        if now < o'.expiresAt then Act.refuse .storageNotExpired)
      (fun _ _ => Near S.time s₀ s₀' (S.inside m₀ n₀ k ids)) (Near S.time s₀ s₀' (S.since m₀ n₀)) := by
    rw [alike.expiresAt]
    refine Near.readClock.bind fun now now' => .given ?_
    rintro ⟨rfl, -⟩
    split_ifs
    · exact .refuse _ fun _ _ => since_of_inside
    · exact .pure fun _ _ => id
  unfold checkReclaim
  rw [alike.status]
  cases o.status with
  | accepted => exact .refuse _ fun _ _ => since_of_inside
  | returned => exact .pure fun _ _ => id
  | expects | deleted => exact timed

/-- the work of handing an order back to the courier -/
theorem reclaimWork_inside {id : Nat} (fits : S.fits id) :
    Together (Near S.time s₀ s₀' (S.inside m₀ n₀ k ids))
      (do
        let order ← findOrder id
        checkReclaim order
        PickupPoint.appendHistory id .deleted
        deleteOrder id
        PickupPoint.appendEvent .orderReturnedToCourier (.courier order.userId) order .deleted)
      (do
        let order ← findOrder id
        checkReclaim order
        PickupPoint.appendHistory id .deleted
        deleteOrder id
        PickupPoint.appendEvent .orderReturnedToCourier (.courier order.userId) order .deleted)
      (fun _ _ => Near S.time s₀ s₀' (S.inside m₀ n₀ k (ids.filter (· ≠ id)))) (Near S.time s₀ s₀' (S.since m₀ n₀)) := by
  refine (h.findOrder_inside fits).bind fun o o' => .given fun ⟨alike, _⟩ => ?_
  refine (checkReclaim_inside alike).bind fun _ _ => (h.appendHistory_inside .deleted fits).bind fun _ _ => ?_
  refine (h.deleteOrder_inside fits).bind fun _ _ => ?_
  rw [alike.userId]
  exact h.appendEvent_inside _ _ alike.id alike.userId _

theorem applyAction_inside {userId : Nat} {action : Action} {now : Instant} {id : Nat} (fits : S.fits id)
    (time : S.time now) :
    Together (Near S.time s₀ s₀' (S.inside m₀ n₀ k ids)) (applyAction userId action now id)
      (applyAction userId action now id) (fun t t' s s' => t' = t ∧ Near S.time s₀ s₀' (S.inside m₀ n₀ k ids) s s')
      (Near S.time s₀ s₀' (S.since m₀ n₀)) := by
  refine (h.findOrder_inside fits).bind fun o o' => .given fun ⟨alike, stores⟩ => ?_
  rw [alike.userId, alike.expiresAt]
  dsimp only
  split_ifs
  · rw [refuse_bind, refuse_bind]; exact .refuse _ fun _ _ => since_of_inside
  · rw [refuse_bind, refuse_bind]; exact .refuse _ fun _ _ => since_of_inside
  · rw [refuse_bind, refuse_bind]; exact .refuse _ fun _ _ => since_of_inside
  · rcases alike.after action now with ⟨p, p', t, after, after', alike'⟩ | ⟨e, after, after'⟩
    · rw [after, after']
      have stored : S.stores p := h.stores_after stores time after
      refine Together.bind (P := fun x x' s s' => (x = (p, t) ∧ x' = (p', t)) ∧
        Near S.time s₀ s₀' (S.inside m₀ n₀ k ids) s s') (.pure fun _ _ near => ⟨⟨rfl, rfl⟩, near⟩) fun x x' => .given ?_
      rintro ⟨rfl, rfl⟩
      dsimp only
      rw [alike'.id, alike'.status]
      refine (h.updateOrder_inside stored alike').bind fun _ _ => ?_
      refine (h.appendHistory_inside p.status (h.stores_fits stored)).bind fun _ _ => ?_
      refine (h.appendEvent_inside _ _ alike'.id alike'.userId _).bind fun _ _ => ?_
      exact .pure fun _ _ near => ⟨rfl, near⟩
    · rw [after, after']
      rw [show (Act.ofExcept (.error e) : Act σ κ (Order × EventType)) = Act.refuse e from rfl,
        show (Act.ofExcept (.error e) : Act τ ν (Order × EventType)) = Act.refuse e from rfl, refuse_bind, refuse_bind]
      exact .refuse e fun _ _ => since_of_inside

/-- One id of a batch, which refuses nothing. -/
theorem applyInBatch_inside {userId : Nat} {action : Action} {now : Instant} {id : Nat} (fits : S.fits id)
    (time : S.time now) :
    Together (Near S.time s₀ s₀' (S.inside m₀ n₀ k ids)) (applyInBatch userId action now id)
      (applyInBatch userId action now id) (fun x x' s s' => x' = x ∧ Near S.time s₀ s₀' (S.inside m₀ n₀ k ids) s s')
      (Near S.time s₀ s₀' (S.since m₀ n₀)) := by
  refine (h.savepoint_inside fun m n => h.applyAction_inside fits time).attempt.bind fun r r' => .matched ?_ ?_
  · rintro outcome outcome' rfl rfl
    refine .given ?_
    rintro rfl
    exact .pure fun _ _ near => ⟨rfl, near⟩
  · rintro e rfl rfl
    exact (Near.noteFailure e).bind fun _ _ => .pure fun _ _ near => ⟨rfl, near⟩

end Inside

/-! ## Changes -/

section Rest

variable {ids : List Nat}

include h

theorem storeAccepted_rest {o : Order} (stores : S.stores o) :
    Together (Near S.time s₀ s₀' (S.rest ids)) (storeAccepted o) (storeAccepted o)
      (fun _ _ => Near S.time s₀ s₀' (S.rest (ids ++ [o.id]))) (Near S.time s₀ s₀' (S.rest ids)) := by
  refine (Near.counted (h.transaction_rest (Q := fun _ _ ids' => ids' = ids ++ [o.id]) fun m n =>
    (h.acceptWork_inside stores).weaken fun _ _ _ _ near => near.mono fun _ _ hi => ⟨_, _, rfl, hi⟩)).bind fun _ _ => ?_
  refine (Near.noteEvent .orderAccepted).weaken fun _ _ _ _ near => near.mono fun m n => ?_
  rintro ⟨_, rfl, rest⟩
  exact rest

theorem storeReclaimed_rest {id : Nat} (fits : S.fits id) :
    Together (Near S.time s₀ s₀' (S.rest ids)) (storeReclaimed id) (storeReclaimed id)
      (fun _ _ => Near S.time s₀ s₀' (S.rest (ids.filter (· ≠ id)))) (Near S.time s₀ s₀' (S.rest ids)) := by
  refine (Near.counted (h.transaction_rest (Q := fun _ _ ids' => ids' = ids.filter (· ≠ id)) fun m n =>
    (h.reclaimWork_inside fits).weaken fun _ _ _ _ near => near.mono fun _ _ hi => ⟨_, _, rfl, hi⟩)).bind fun _ _ => ?_
  refine (Near.noteEvent .orderReturnedToCourier).weaken fun _ _ _ _ near => near.mono fun m n => ?_
  rintro ⟨_, rfl, rest⟩
  exact rest

/-- A batch comes to the same on both sides, for every id of it. -/
theorem batch_rest {userId : Nat} {action : Action} {now : Instant} {batch : List Nat} (fits : ∀ id ∈ batch, S.fits id)
    (time : S.time now) :
    Together (Near S.time s₀ s₀' (S.rest ids)) (transaction (batch.mapM (applyInBatch userId action now)))
      (transaction (batch.mapM (applyInBatch userId action now)))
      (fun x x' s s' => x' = x ∧ Near S.time s₀ s₀' (S.rest ids) s s') (Near S.time s₀ s₀' (S.rest ids)) := by
  refine (h.transaction_rest (Q := fun x x' ids' => x' = x ∧ ids' = ids) fun m n =>
    (Together.mapM fun id hid => h.applyInBatch_inside (fits id hid) time).weaken fun _ _ _ _ ⟨same, near⟩ =>
      near.mono fun _ _ hi => ⟨_, _, ⟨same, rfl⟩, hi⟩).weaken fun x x' s s' near => ?_
  obtain ⟨_, ⟨rfl, -⟩, -⟩ := near.stores
  refine ⟨rfl, near.mono fun _ _ => ?_⟩
  rintro ⟨_, ⟨-, rfl⟩, rest⟩
  exact rest

end Rest

/-! ## Checks and questions -/

section Still

variable {ids : List Nat} {m₀ : σ} {n₀ : τ}

include h

/-- A parcel that is handed over comes to the same order on both sides. -/
theorem checkAcceptance_still {a : Acceptance} (takes : S.takes a) :
    Together (Near S.time s₀ s₀' (S.Still ids m₀ n₀)) (checkAcceptance a) (checkAcceptance a)
      (fun o o' s s' => (o' = o ∧ S.stores o ∧ o.status = .expects) ∧ Near S.time s₀ s₀' (S.Still ids m₀ n₀) s s')
      (Near S.time s₀ s₀' (S.Still ids m₀ n₀)) := by
  unfold checkAcceptance
  refine Near.readClock.bind fun now now' => .given ?_
  rintro ⟨rfl, -⟩
  dsimp only
  split_ifs
  · rw [fail_bind, fail_bind]; exact Near.fail _
  refine (Near.counted (.check (Package.parse a.package))).bind fun package package' => .given ?_
  rintro ⟨rfl, -⟩
  have rest : Together (Near S.time s₀ s₀' (S.Still ids m₀ n₀))
      (do
        let order : Order := ⟨a.orderId, a.userId, .expects, a.expiresAt, package', a.weight, a.price⟩
        counted (ofExcept order.checkWeight)
        let order := order.addSurcharge
        counted (ofExcept order.checkPrice)
        return order : Act σ κ Order)
      (do
        let order : Order := ⟨a.orderId, a.userId, .expects, a.expiresAt, package', a.weight, a.price⟩
        counted (ofExcept order.checkWeight)
        let order := order.addSurcharge
        counted (ofExcept order.checkPrice)
        return order : Act τ ν Order)
      (fun o o' s s' => (o' = o ∧ S.stores o ∧ o.status = .expects) ∧ Near S.time s₀ s₀' (S.Still ids m₀ n₀) s s')
      (Near S.time s₀ s₀' (S.Still ids m₀ n₀)) := by
    refine (Near.counted (.check _)).bind fun _ _ => .given fun _ => ?_
    refine (Near.counted (.check _)).bind fun _ _ => .given fun ⟨_, price⟩ => ?_
    exact .pure fun _ _ near => ⟨⟨rfl, h.stores_taken takes rfl rfl rfl price, rfl⟩, near⟩
  refine (h.storedOrder_still (h.takes_fits takes)).attempt.bind fun r r' => .matched ?_ ?_
  · rintro o o' rfl rfl
    dsimp only
    rw [fail_bind, fail_bind]
    exact .given fun _ => Near.fail _
  · rintro e rfl rfl
    cases e with
    | orderNotFound => exact rest
    | _ =>
      dsimp only
      rw [fail_bind, fail_bind]
      exact Near.fail _

theorem getOrder_still {id : Nat} (fits : S.fits id) :
    Together (Near S.time s₀ s₀' (S.Still ids m₀ n₀)) (getOrder id) (getOrder id)
      (fun o o' s s' => o.Alike S.price o' ∧ Near S.time s₀ s₀' (S.Still ids m₀ n₀) s s')
      (Near S.time s₀ s₀' (S.Still ids m₀ n₀)) :=
  Near.counted (h.storedOrder_still fits)

theorem historyPage_still (page count : Nat) :
    Together (Near S.time s₀ s₀' (S.Still ids m₀ n₀)) (historyPage page count) (historyPage page count)
      (fun l l' s s' => S.told l l' ∧ Near S.time s₀ s₀' (S.Still ids m₀ n₀) s s')
      (Near S.time s₀ s₀' (S.Still ids m₀ n₀)) :=
  Near.counted (h.storedHistory_still page count)

/-- A question about all orders is answered from alike lists. -/
theorem asked_still {γ : Type} (answer : List Order → γ) :
    Together (Near S.time s₀ s₀' (S.Still ids m₀ n₀))
      (do
        let orders ← counted storedOrders
        return answer orders)
      (do
        let orders ← counted storedOrders
        return answer orders)
      (fun c c' s s' => (∃ l l', S.listed l l' ∧ c = answer l ∧ c' = answer l') ∧
        Near S.time s₀ s₀' (S.Still ids m₀ n₀) s s')
      (Near S.time s₀ s₀' (S.Still ids m₀ n₀)) :=
  (Near.counted h.storedOrders_still).bind fun l l' => .given fun listed =>
    .pure fun _ _ near => ⟨⟨l, l', listed, rfl, rfl⟩, near⟩

theorem listOrders_still (userId : Nat) (inPickupPoint : Bool) (last page limit : Nat) :
    Together (Near S.time s₀ s₀' (S.Still ids m₀ n₀)) (listOrders userId inPickupPoint last page limit)
      (listOrders userId inPickupPoint last page limit)
      (fun c c' s s' => (∃ l l', S.listed l l' ∧ c = listing userId inPickupPoint last page limit l ∧
        c' = listing userId inPickupPoint last page limit l') ∧ Near S.time s₀ s₀' (S.Still ids m₀ n₀) s s')
      (Near S.time s₀ s₀' (S.Still ids m₀ n₀)) := by
  unfold listOrders
  split_ifs
  · rw [fail_bind, fail_bind]; exact Near.fail _
  · exact h.asked_still (listing userId inPickupPoint last page limit)

theorem listReturns_still (page limit : Nat) :
    Together (Near S.time s₀ s₀' (S.Still ids m₀ n₀)) (listReturns page limit) (listReturns page limit)
      (fun c c' s s' => (∃ l l', S.listed l l' ∧ c = returnsListing page limit l ∧
        c' = returnsListing page limit l') ∧ Near S.time s₀ s₀' (S.Still ids m₀ n₀) s s')
      (Near S.time s₀ s₀' (S.Still ids m₀ n₀)) :=
  h.asked_still (returnsListing page limit)

theorem scrollOrders_still (userId cursor limit : Nat) :
    Together (Near S.time s₀ s₀' (S.Still ids m₀ n₀)) (scrollOrders userId cursor limit)
      (scrollOrders userId cursor limit)
      (fun c c' s s' => (∃ l l', S.listed l l' ∧ c = scrolling userId cursor limit l ∧
        c' = scrolling userId cursor limit l') ∧ Near S.time s₀ s₀' (S.Still ids m₀ n₀) s s')
      (Near S.time s₀ s₀' (S.Still ids m₀ n₀)) :=
  h.asked_still (scrolling userId cursor limit)

end Still

end Simulation.Sound

end PickupPoint
