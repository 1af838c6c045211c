/-
Transactions on a store in memory, and the calls inside them.

`transaction_run` and `savepoint_run` say how a scope ends: what was written stays if the work ended with an answer
and, for a transaction, its commit was not refused; else the store is as it was before the scope. Of the calls inside,
and of the acts that the service makes of them, it is said what an answer means for the store, whatever faults are
set: `insertNew_obeys`, `applyAction_obeys` and the work of a reclaim (`reclaimWork_obeys`) each come to one `Change`.
-/
import PickupPoint.Service.Accept
import PickupPoint.Proofs.Changes
import PickupPoint.Proofs.Laws

namespace PickupPoint

open Act

variable {κ α : Type} {R : Law Memory κ}

/-! ## Calls -/

theorem Memory.find_snd (id : Nat) (m : Memory) : (Memory.find id m).2 = m := by
  unfold Memory.find; split <;> rfl

theorem Memory.of_find {id : Nat} {m : Memory} {o : Order} (h : (Memory.find id m).1 = .ok o) :
    m.orders.find? id = some o := by
  unfold Memory.find at h
  split at h
  · cases h; assumption
  · cases h

theorem storedOrder_obeys [Frame R] (id : Nat) (s : Site Memory κ) :
    Obeys R (storedOrder id) s fun o m => m = s.store ∧ s.store.orders.find? id = some o :=
  Obeys.read (by decide) (fun _ => Memory.find_snd id s.store) fun _ _ found => ⟨rfl, Memory.of_find found⟩

theorem findOrder_obeys [Frame R] (id : Nat) (s : Site Memory κ) :
    Obeys R (findOrder id) s fun o m => m = s.store ∧ s.store.orders.find? id = some o :=
  Obeys.read (by decide) (fun _ => Memory.find_snd id s.store) fun _ _ found => ⟨rfl, Memory.of_find found⟩

section Writes

variable [Writes R]

theorem insertOrder_obeys (o : Order) (s : Site Memory κ) :
    Obeys R (insertOrder o) s fun _ m => s.store.orders.find? o.id = none ∧ m = s.store.seed o := by
  refine Obeys.call (by decide) fun _ _ m h => ?_
  change Memory.insert o s.store = _ at h
  unfold Memory.insert at h
  split at h
  · cases h
  · rename_i ho; cases h; exact ⟨ho, rfl⟩

theorem updateOrder_obeys (o : Order) (s : Site Memory κ) :
    Obeys R (updateOrder o) s fun _ m => m = s.store.seed o := by
  refine Obeys.call (by decide) fun _ _ m h => ?_
  change Memory.update o s.store = _ at h
  unfold Memory.update at h
  split at h <;> cases h
  rfl

theorem deleteOrder_obeys (id : Nat) (s : Site Memory κ) :
    Obeys R (deleteOrder id) s fun _ m => m = { s.store with orders := s.store.orders.erase id } := by
  refine Obeys.call (by decide) fun _ _ m h => ?_
  change Memory.delete id s.store = _ at h
  unfold Memory.delete at h
  split at h <;> cases h
  rfl

theorem appendHistory_obeys (id : Nat) (status : Status) (s : Site Memory κ) :
    Obeys R (appendHistory id status) s fun _ m =>
      ∃ time, m = { s.store with
        history := s.store.history ++ [⟨(s.store.historyIds + 1 : Nat), id, status, time⟩]
        historyIds := s.store.historyIds + 1 } := by
  refine Obeys.call (by decide) fun now _ m h => ?_
  cases h; exact ⟨now, rfl⟩

theorem appendEvent_obeys (t : EventType) (actor : Actor) (o : Order) (status : Status) (s : Site Memory κ) :
    Obeys R (appendEvent t actor o status) s fun _ m =>
      ∃ id time, m = { s.store with outbox := s.store.outbox ++ [Event.about id time t actor o status] } := by
  refine Obeys.newEventId.bind fun id s₁ _ h₁ => Obeys.readClock.bind fun time s₂ _ h₂ => ?_
  refine Obeys.call (by decide) fun _ _ m h => ?_
  cases h; exact ⟨id, time, by rw [h₂, h₁]⟩

/-! ## The work of the service -/

theorem insertNew_obeys (o : Order) (s : Site Memory κ) :
    Obeys R (insertNew o) s fun _ m => s.store.orders.find? o.id = none ∧ m = s.store.seed o := by
  refine (insertOrder_obeys o s).attempt.bind fun r s₁ _ h => ?_
  split
  · exact Obeys.pure (h () rfl)
  · exact Obeys.refuse _
  · exact Obeys.refuse _

/-- the work of storing an order that is accepted -/
theorem acceptWork_obeys {o : Order} (new : o.status = .expects) (s : Site Memory κ) :
    Obeys R (do
      insertNew o
      appendHistory o.id o.status
      appendEvent .orderAccepted (.courier o.userId) o o.status) s fun _ m => s.store.Changes (.accept o) m := by
  refine (insertNew_obeys o s).bind fun _ s₁ _ ⟨free, h₁⟩ => ?_
  refine (appendHistory_obeys _ _ s₁).bind fun _ s₂ _ ⟨written, h₂⟩ => ?_
  refine (appendEvent_obeys _ _ _ _ s₂).mono fun _ m ⟨id, told, h₃⟩ => ?_
  rw [h₃, h₂, h₁]
  exact .accepted ⟨written, told, id⟩ free new

theorem applyAction_obeys (userId : Nat) (action : Action) (now : Instant) (id : Nat) (s : Site Memory κ) :
    Obeys R (applyAction userId action now id) s fun t m =>
      t = action.eventType ∧ s.store.Changes (.process userId action now id) m := by
  refine (findOrder_obeys id s).bind fun o s₁ _ ⟨h₁, found⟩ => ?_
  dsimp only
  split_ifs with own due due
  · rw [refuse_bind]; exact Obeys.refuse _
  · rw [refuse_bind]; exact Obeys.refuse _
  · rw [refuse_bind]; exact Obeys.refuse _
  · have after : Obeys R (Act.ofExcept (o.after action now)) s₁ fun p m =>
        o.after action now = .ok p ∧ m = s₁.store :=
      Obeys.ofExcept fun p hp => ⟨hp, rfl⟩
    refine after.bind fun (o', t) s₂ _ ⟨after, h₂⟩ => ?_
    refine (updateOrder_obeys o' s₂).bind fun _ s₃ _ h₃ => ?_
    refine (appendHistory_obeys _ _ s₃).bind fun _ s₄ _ ⟨written, h₄⟩ => ?_
    refine (appendEvent_obeys _ _ _ _ s₄).bind fun _ s₅ _ ⟨eventId, told, h₅⟩ => Obeys.pure ?_
    refine ⟨(Order.after_ok after).1, ?_⟩
    rw [h₅, h₄, h₃, h₂, h₁]
    exact .processed ⟨written, told, eventId⟩ found (not_not.1 own) due after

/-- An order may be taken back if it was returned, or if it is not with its client and its deadline has passed. -/
theorem checkReclaim_obeys (o : Order) (s : Site Memory κ) :
    Obeys R (checkReclaim o) s fun _ m => m = s.store ∧
      ∃ now, o.status = .returned ∨ (o.status ≠ .accepted ∧ ¬ now < o.expiresAt) := by
  unfold checkReclaim
  split
  · exact Obeys.refuse _
  · rename_i hs; exact Obeys.pure ⟨rfl, s.clock.current, .inl hs⟩
  · rename_i hs _
    refine Obeys.readClock.bind fun now s₁ _ h₁ => ?_
    split_ifs with due
    · exact Obeys.refuse _
    · exact Obeys.pure ⟨h₁, now, .inr ⟨hs, due⟩⟩

/-- the work of handing an order back to the courier -/
theorem reclaimWork_obeys (id : Nat) (s : Site Memory κ) :
    Obeys R (do
      let order ← findOrder id
      checkReclaim order
      appendHistory id .deleted
      deleteOrder id
      appendEvent .orderReturnedToCourier (.courier order.userId) order .deleted) s fun _ m =>
        ∃ now, s.store.Changes (.reclaim now id) m := by
  refine (findOrder_obeys id s).bind fun o s₁ _ ⟨h₁, found⟩ => ?_
  refine (checkReclaim_obeys o s₁).bind fun _ s₂ _ ⟨h₂, now, free⟩ => ?_
  refine (appendHistory_obeys _ _ s₂).bind fun _ s₃ _ ⟨written, h₃⟩ => ?_
  refine (deleteOrder_obeys _ s₃).bind fun _ s₄ _ h₄ => ?_
  refine (appendEvent_obeys _ _ _ _ s₄).mono fun _ m ⟨eventId, told, h₅⟩ => ⟨now, ?_⟩
  obtain rfl := OrderTable.find?_id found
  rw [h₅, h₄, h₃, h₂, h₁]
  exact .reclaimed ⟨written, told, eventId⟩ found free

end Writes

/-! ## Scopes -/

/-- A transaction keeps what was written if the work ended with an answer and the commit was not refused. -/
theorem transaction_run (act : Act Memory κ α) (s : Site Memory κ) :
    transaction act s = match arrive .begin false s with
      | (.error h, s₁) => (.error h, s₁)
      | (.ok _, s₁) => match closedAt .commit false act s₁ with
        | (.ok a, s₂) => (.ok a, s₂)
        | (.error h, s₂) => (.error h, { s₂ with store := s₁.store }) := by
  show (do
    let _ ← arrive .begin false
    fun s =>
      let ((_, a), s) := inTransaction (closedAt .commit false act) id s
      (a, s) : Act Memory κ α) s = _
  rw [bind_run]
  rcases arrive .begin false s with ⟨_ | _, s₁⟩
  · rfl
  · dsimp only [inTransaction, atStore, OrderStore.begin, id]
    rcases closedAt .commit false act s₁ with ⟨_ | _, s₂⟩ <;> rfl

/-- A savepoint may be skipped. Else it keeps what was written, unless its work was refused. -/
theorem savepoint_run (act : Act Memory κ α) (s : Site Memory κ) :
    savepoint act s = match arrive .txSavepoint false s with
      | (.error h, s₁) => (.error h, s₁)
      | (.ok true, s₁) => (.ok none, s₁)
      | (.ok false, s₁) => match closedAt .txSavepoint true act s₁ with
        | (.ok a, s₂) => (.ok (some a), s₂)
        | (.error (.error e), s₂) => (.error (.error e), { s₂ with store := s₁.store })
        | (.error (.panic text), s₂) => (.error (.panic text), s₂) := by
  show (do
    if ← arrive .txSavepoint false then return none
    fun s =>
      let ((_, a), s) := inSavepoint (closedAt .txSavepoint true act) id s
      (a.map some, s) : Act Memory κ (Option α)) s = _
  rw [bind_run]
  rcases arrive .txSavepoint false s with ⟨_ | (_ | _), s₁⟩
  · rfl
  · dsimp only
    rw [if_neg Bool.false_ne_true]
    dsimp only [inSavepoint, atStore, OrderStore.savepoint, id]
    rcases closedAt .txSavepoint true act s₁ with ⟨(_ | _) | _, s₂⟩ <;> rfl
  · rfl

theorem transaction_obeys [Commits R] {act : Act Memory κ α} {s : Site Memory κ} {Q : α → Memory → Prop}
    (h : ∀ s', s'.store = s.store → Obeys R act s' Q) : Obeys (Undone R) (transaction act) s Q := by
  have opened := Obeys.arrive_any (R := R) (s := s) .begin false
  have kept : (arrive .begin false s).2.store = s.store := by rw [arrive_run]
  obtain ⟨law, -⟩ := opened
  rcases hb : arrive .begin false s with ⟨_ | _, s₁⟩ <;> rw [hb] at law kept
  · constructor <;> rw [transaction_run, hb]
    · exact ⟨law, fun _ => kept⟩
    · nofun
  · obtain ⟨law', answer⟩ := (h s₁ kept).closedAt_any .commit false
    constructor <;> rw [transaction_run, hb] <;> dsimp only <;>
      rcases hw : closedAt .commit false act s₁ with ⟨_ | a, s₂⟩ <;>
      rw [hw] at law' answer
    · exact ⟨Composes.comp law (Writes.write _ law'), fun _ => kept⟩
    · exact ⟨Composes.comp law law', nofun⟩
    · nofun
    · exact answer

end PickupPoint
