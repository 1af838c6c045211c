/-
What the service decides where no faults are set, as equations.

A parcel is judged by what the courier says of it, by the time and by whether its id is taken, and the check answers
just that (`checkAcceptance_run`). Storing it goes through if the id is free (`storeAccepted_free`), and else it is found
to be taken (`storeAccepted_taken`). One id of a batch comes to a verdict on the order that the client has under it, and
an order of someone else is as good as none (`applyInBatch_run`).
-/
import PickupPoint.Proofs.Nesting

namespace PickupPoint

open Act

/-! ## Verdicts -/

/-- the order of a parcel before its surcharge -/
def Acceptance.packed (a : Acceptance) (package : Package) : Order :=
  ⟨a.orderId, a.userId, .expects, a.expiresAt, package, a.weight, a.price⟩

/-- the order with its surcharge, if its weight and its price then are allowed -/
def Order.charged (o : Order) : Except Error Order := do
  o.checkWeight
  o.addSurcharge.checkPrice
  return o.addSurcharge

/-- the order to store for a parcel, or why it is refused -/
def Acceptance.judged (a : Acceptance) (now : Instant) (taken : Bool) : Except Error Order :=
  if a.expiresAt ≤ now then .error deadlinePassed
  else (Package.parse a.package).bind fun package =>
    if taken then .error .orderAlreadyExists else (a.packed package).charged

/-- what an action comes to on the order that a client has under an id, if there is one -/
def Order.verdict (action : Action) (now : Instant) : Option Order → Except Error (Order × EventType)
  | none => .error .orderNotFound
  | some o => if o.expiresAt < now then .error (overdue action) else o.after action now

/-- the order that a client has under an id -/
def Memory.ownOrder (m : Memory) (userId id : Nat) : Option Order := (m.orders.find? id).filter (·.userId = userId)

theorem Order.charged_ok {o o' : Order} (h : o.charged = .ok o') :
    o' = o.addSurcharge ∧ o.addSurcharge.checkPrice = .ok () := by
  unfold charged at h
  rcases hw : o.checkWeight with _ | _ <;> rcases hp : o.addSurcharge.checkPrice with _ | _ <;> rw [hw, hp] at h <;>
    cases h
  exact ⟨rfl, rfl⟩

/-- Who is not refused comes under an id that is free, and in a known package. -/
theorem judged_charged {a : Acceptance} {now : Instant} {taken : Bool} {o : Order} (h : a.judged now taken = .ok o) :
    taken = false ∧ ∃ package, Package.parse a.package = .ok package ∧ (a.packed package).charged = .ok o := by
  unfold Acceptance.judged at h
  by_cases past : a.expiresAt ≤ now
  · rw [if_pos past] at h; cases h
  rw [if_neg past] at h
  rcases hp : Package.parse a.package with e | package <;> rw [hp] at h
  · cases h
  rcases taken with _ | _
  · exact ⟨rfl, package, rfl, h⟩
  · cases h

/-- What is stored is the parcel, expected, with a surcharge. -/
theorem judged_ok {a : Acceptance} {now : Instant} {taken : Bool} {o : Order} (h : a.judged now taken = .ok o) :
    taken = false ∧ o.id = a.orderId ∧ o.status = .expects := by
  obtain ⟨free, package, -, charged⟩ := judged_charged h
  obtain ⟨rfl, -⟩ := Order.charged_ok charged
  exact ⟨free, rfl, rfl⟩

/-- A parcel that would be accepted if its id were free is refused for its id if it is taken. -/
theorem judged_taken {a : Acceptance} {now : Instant} {o : Order} (h : a.judged now false = .ok o) :
    a.judged now true = .error .orderAlreadyExists := by
  unfold Acceptance.judged at h ⊢
  by_cases past : a.expiresAt ≤ now
  · rw [if_pos past] at h; cases h
  rw [if_neg past] at h ⊢
  rcases hp : Package.parse a.package with e | package <;> rw [hp] at h
  · cases h
  · rfl

/-! ## Calls of the store -/

section Calls

variable {κ : Type} {s : Site Memory κ} (hs : s.faults = [])
include hs

theorem call_run {α : Type} (p : Point) (op : Instant → Access Memory α) :
    reachedAt p (onStore op) s =
      ((op s.clock.current s.store).1.mapError .error, { s with store := (op s.clock.current s.store).2 }) := by
  rw [reachedAt_faultless hs, onStore_run]

theorem find_run (p : Point) (id : Nat) :
    reachedAt p (onStore fun _ => Memory.find id) s =
      match s.store.orders.find? id with
      | some o => (.ok o, s)
      | none => (.error (.error .orderNotFound), s) := by
  rw [call_run hs]
  dsimp only [Memory.find]
  rcases s.store.orders.find? id with _ | o <;> rfl

theorem insertNew_run (o : Order) :
    insertNew o s =
      match s.store.orders.find? o.id with
      | some _ => (.error (.error .orderAlreadyExists), s)
      | none => (.ok (), { s with store := s.store.seed o }) := by
  have inserted : insertOrder o s = _ := call_run hs .txSaveOrder fun _ => Memory.insert o
  unfold insertNew
  rw [bind_run, attempt_run, inserted]
  dsimp only [Memory.insert]
  rcases s.store.orders.find? o.id with _ | x <;> rfl

theorem updateOrder_run {o x : Order} (found : s.store.orders.find? o.id = some x) :
    updateOrder o s = (.ok (), { s with store := s.store.seed o }) := by
  have updated : updateOrder o s = _ := call_run hs .txUpdateOrder fun _ => Memory.update o
  rw [updated]
  dsimp only [Memory.update]
  rw [found]
  rfl

end Calls

/-- the site after an order took a status, with its rows as they are from then on -/
def Site.noted {κ : Type} (s : Site Memory κ) (orders : OrderTable) (t : EventType) (actor : Actor) (o : Order)
    (status : Status) : Site Memory κ :=
  { s with
    clock := s.clock.advance
    eventIds := s.eventIds + 1
    store := s.store.recorded orders t actor o status
      ⟨s.clock.current, s.clock.current, Uuid.ofRandom s.eventIds⟩ }

theorem note_run {κ : Type} {s : Site Memory κ} (hs : s.faults = []) (orders : OrderTable) (t : EventType)
    (actor : Actor) (o : Order) (status : Status) :
    (do appendHistory o.id status; appendEvent t actor o status : Act Memory κ Unit)
      { s with store := { s.store with orders } } = (.ok (), s.noted orders t actor o status) := by
  have written : appendHistory o.id status { s with store := { s.store with orders } } = _ :=
    call_run (s := { s with store := { s.store with orders } }) hs .txAppendHistory (Memory.appendHistory o.id status)
  rw [bind_run, written]
  let told : Site Memory κ := { s with
    clock := s.clock.advance
    eventIds := s.eventIds + 1
    store := (Memory.appendHistory o.id status s.clock.current { s.store with orders }).2 }
  exact call_run (s := told) hs .txSaveEvent fun _ =>
    Memory.appendEvent (Event.about (Uuid.ofRandom s.eventIds) s.clock.current t actor o status)

/-! ## Parcels -/

theorem charged_run {κ : Type} (o : Order) (s : Site Memory κ) :
    (do
      counted (ofExcept o.checkWeight)
      counted (ofExcept o.addSurcharge.checkPrice)
      return o.addSurcharge : Act Memory κ Order) s =
      match o.charged with
      | .ok o' => (.ok o', s)
      | .error e => (.error (.error e), { s with metrics := s.metrics.countFailure e.code }) := by
  unfold Order.charged
  rw [bind_run, counted_run, ofExcept_run]
  rcases o.checkWeight with e | _
  · rfl
  dsimp only [Except.mapError]
  rw [bind_run, counted_run, ofExcept_run]
  rcases o.addSurcharge.checkPrice with e | _ <;> rfl

section Parcels

variable {κ : Type} {s : Site Memory κ} (hs : s.faults = [])
include hs

/-- the check of a parcel answers what is judged of it, and counts a refusal -/
theorem checkAcceptance_run (a : Acceptance) :
    checkAcceptance a s =
      match a.judged s.clock.current (s.store.orders.find? a.orderId).isSome with
      | .ok o => (.ok o, { s with clock := s.clock.advance })
      | .error e => (.error (.error e),
          { s with clock := s.clock.advance, metrics := s.metrics.countFailure e.code }) := by
  have looked : storedOrder a.orderId { s with clock := s.clock.advance } = _ :=
    find_run (s := { s with clock := s.clock.advance }) hs .getOrder a.orderId
  unfold checkAcceptance Acceptance.judged
  rw [bind_run, readClock_run]
  dsimp only
  by_cases past : a.expiresAt ≤ s.clock.current
  · rw [if_pos past, if_pos past]
    rfl
  rw [if_neg past, if_neg past, bind_run, counted_run, ofExcept_run]
  rcases Package.parse a.package with e | package
  · rfl
  dsimp only [Except.mapError, Except.bind]
  rw [bind_run, attempt_run, looked]
  dsimp only
  rcases s.store.orders.find? a.orderId with _ | x
  · exact charged_run (a.packed package) { s with clock := s.clock.advance }
  · rfl

/-- a parcel whose id is free is stored -/
theorem storeAccepted_free {o : Order} (free : s.store.orders.find? o.id = none) :
    storeAccepted o s =
      let noted := s.noted (s.store.orders.put o) .orderAccepted (.courier o.userId) o o.status
      (.ok (), { noted with metrics := s.metrics.countEvent .orderAccepted }) := by
  have inserted := insertNew_run hs o
  rw [free] at inserted
  have worked : (do
      insertNew o
      appendHistory o.id o.status
      appendEvent .orderAccepted (.courier o.userId) o o.status : Act Memory κ Unit) s =
        (.ok (), s.noted (s.store.orders.put o) .orderAccepted (.courier o.userId) o o.status) := by
    rw [bind_run, inserted]
    exact note_run hs (s.store.orders.put o) .orderAccepted (.courier o.userId) o o.status
  unfold storeAccepted
  rw [bind_run, counted_run, transaction_faultless hs (by rw [worked]; exact hs), worked]
  rfl

/-- One whose id is taken is refused for that. -/
theorem storeAccepted_taken {o x : Order} (taken : s.store.orders.find? o.id = some x) :
    storeAccepted o s =
      (.error (.error .orderAlreadyExists), { s with metrics := s.metrics.countFailure .orderAlreadyExists }) := by
  have refused := insertNew_run hs o
  rw [taken] at refused
  have worked : (do
      insertNew o
      appendHistory o.id o.status
      appendEvent .orderAccepted (.courier o.userId) o o.status : Act Memory κ Unit) s =
        (.error (.error .orderAlreadyExists), s) := by
    rw [bind_run, refused]
  unfold storeAccepted
  rw [bind_run, counted_run, transaction_faultless hs (by rw [worked]; exact hs), worked]
  rfl

end Parcels

/-! ## Ids of a batch -/

section Ids

variable {κ : Type} {s : Site Memory κ} (hs : s.faults = [])
include hs

/-- an action on one id -/
theorem applyAction_run (userId : Nat) (action : Action) (now : Instant) (id : Nat) :
    applyAction userId action now id s =
      match Order.verdict action now (s.store.ownOrder userId id) with
      | .ok (o, t) => (.ok t, s.noted (s.store.orders.put o) t (.client userId) o o.status)
      | .error e => (.error (.error e), s) := by
  have looked : findOrder id s = _ := find_run hs .txGetOrder id
  unfold applyAction Memory.ownOrder
  rw [bind_run, looked]
  rcases found : s.store.orders.find? id with _ | o
  · rfl
  dsimp only
  by_cases own : o.userId = userId
  · rw [if_neg (not_not.2 own), Option.filter_some_pos (by simpa using own)]
    by_cases due : o.expiresAt < now
    · rw [if_pos due, Order.verdict, if_pos due]
      rfl
    rw [if_neg due, Order.verdict, if_neg due, bind_run, ofExcept_run]
    rcases after : o.after action now with e | ⟨o', t⟩
    · rfl
    have stored : s.store.orders.find? o'.id = some o := by rw [Order.after_found found after, found]
    dsimp only [Except.mapError]
    rw [bind_run, updateOrder_run hs stored]
    have noted : (do appendHistory o'.id o'.status; appendEvent t (.client userId) o' o'.status : Act Memory κ Unit)
        { s with store := s.store.seed o' } = _ :=
      note_run hs (s.store.orders.put o') t (.client userId) o' o'.status
    dsimp only
    rw [← bind_assoc, bind_run, noted]
    rfl
  · rw [if_pos own, Option.filter_some_neg (by simpa using own)]
    rfl

theorem applyInBatch_run (userId : Nat) (action : Action) (now : Instant) (id : Nat) :
    applyInBatch userId action now id s =
      match Order.verdict action now (s.store.ownOrder userId id) with
      | .ok (o, t) => (.ok (id, some t), s.noted (s.store.orders.put o) t (.client userId) o o.status)
      | .error e => (.ok (id, none), { s with metrics := s.metrics.countFailure e.code }) := by
  have applied := applyAction_run hs userId action now id
  unfold applyInBatch
  rw [bind_run]
  rcases hv : Order.verdict action now (s.store.ownOrder userId id) with e | ⟨o, t⟩ <;> rw [hv] at applied <;>
    rw [savepoint_faultless hs (by rw [applied]; exact hs), applied] <;> rfl

end Ids

end PickupPoint
