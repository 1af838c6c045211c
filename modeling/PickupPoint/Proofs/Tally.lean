/-
What the service counts, and what it leaves alone when it asks the cache.

An act that only looks is `Tallied`: if it is refused, one failure has been counted, under the code of the refusal. Of
a change of one order that halts nothing else is left either, and one that answers has counted one event (`Booked`).
Asking the cache refuses nothing, and touches neither the store nor the counters (`Asked`). All of it holds whatever
faults are set.
-/
import PickupPoint.Proofs.Transactions

namespace PickupPoint

namespace Act

variable {σ κ α β : Type}

/-- what is attempted is not refused -/
theorem attempt_granted (act : Act σ κ α) (s : Site σ κ) (e : Error) :
    halt? (attempt act s).1 ≠ some (.error e) := by
  rw [attempt_run]
  rcases act s with ⟨(_ | _) | _, s'⟩ <;> nofun

/-! ## Laws of counting -/

/-- the counters after an act that halted so -/
def tally (m : Metrics) : Option Halt → Metrics
  | some (.error e) => m.countFailure e.code
  | _ => m

/-- nothing is written, and a refusal is counted -/
structure Tallied (s : Site σ κ) (h : Option Halt) (s' : Site σ κ) : Prop extends Aside s h s' where
  store : s'.store = s.store
  metrics : s'.metrics = tally s.metrics h

/-- Of an act that halts nothing is left but the count of its refusal. One that answers has counted an event. -/
structure Booked (t : EventType) (s : Site σ κ) (h : Option Halt) (s' : Site σ κ) : Prop where
  halted : h ≠ none → Tallied s h s'
  answered : h = none → s'.metrics = s.metrics.countEvent t

/-- the cache has been asked, which is no reason to refuse -/
structure Asked (s : Site σ κ) (h : Option Halt) (s' : Site σ κ) : Prop where
  granted : ∀ e, h ≠ some (.error e)
  readings : s'.clock.readings = s.clock.readings
  taken : s.clock.taken ≤ s'.clock.taken
  cacheTtl : s'.cacheTtl = s.cacheTtl
  store : s'.store = s.store
  metrics : s'.metrics = s.metrics
  effects : Fault.effects s'.faults = Fault.effects s.faults

instance : Composes (@Tallied σ κ) where
  comp h₁ h₂ := { h₁.toAside.comp h₂.toAside with
    store := h₂.store.trans h₁.store
    metrics := by rw [h₂.metrics, h₁.metrics]; rfl }

instance : Composes (@Asked σ κ) where
  comp h₁ h₂ := ⟨h₂.granted, h₂.readings.trans h₁.readings, Nat.le_trans h₁.taken h₂.taken,
    h₂.cacheTtl.trans h₁.cacheTtl, h₂.store.trans h₁.store, h₂.metrics.trans h₁.metrics, h₂.effects.trans h₁.effects⟩

theorem Silent.tallied {s s' : Site σ κ} {h : Option Halt} (hs : Silent s h s') (hh : ∀ e, h ≠ some (.error e)) :
    Tallied s h s' := by
  refine { hs.toAside with store := hs.store, metrics := hs.metrics.trans ?_ }
  unfold tally
  split
  · exact absurd rfl (hh _)
  · rfl

theorem Silent.asked {s s' : Site σ κ} {h : Option Halt} (hs : Silent s h s') (hh : ∀ e, h ≠ some (.error e)) :
    Asked s h s' :=
  ⟨hh, hs.readings, hs.taken, hs.cacheTtl, hs.store, hs.metrics, hs.effects⟩

theorem Within.tallied {s s' : Site σ κ} {e : Error} (h : Within s (some (.error e)) s') (hs : s'.store = s.store) :
    Tallied s (some (.error e)) { s' with metrics := s'.metrics.countFailure e.code } :=
  { h.toAside with
    store := hs
    metrics := congrArg (·.countFailure e.code) h.metrics }

namespace Obeys

variable {act : Act σ κ α} {s : Site σ κ} {P : α → σ → Prop}

theorem tallied (h : Obeys Silent act s P) (hr : ∀ e, halt? (act s).1 ≠ some (.error e)) : Obeys Tallied act s P :=
  ⟨h.law.tallied hr, h.answer⟩

theorem tallied_attempt (h : Obeys Silent act s P) :
    Obeys Tallied (Act.attempt act) s fun r m => ∀ a, r = .ok a → P a m :=
  h.attempt.tallied (attempt_granted act s)

theorem tallied_counted (h : Obeys Silent act s P) : Obeys Tallied (Act.counted act) s P := by
  obtain ⟨law, answer⟩ := h
  constructor <;> rw [counted_run] <;> rcases hr : act s with ⟨(e | text) | a, s'⟩ <;> rw [hr] at law answer
  · exact law.toWithin.tallied law.store
  · exact law.tallied nofun
  · exact law.tallied nofun
  · nofun
  · nofun
  · exact answer

theorem tallied_fail (e : Error) : Obeys Tallied (Act.fail e) s P :=
  ⟨{ (Silent.refl s).toAside with calm := nofun, store := rfl, metrics := rfl }, nofun⟩

/-- A transaction whose refusal is counted, and its event once it is through. -/
theorem booked {act : Act σ κ Unit} {P : Unit → σ → Prop} (h : Obeys (Undone Within) act s P) (t : EventType) :
    Obeys (Booked t) (do Act.counted act; noteEvent t) s P := by
  obtain ⟨⟨within, undone⟩, answer⟩ := h
  constructor <;> rw [bind_run, counted_run] <;> rcases hr : act s with ⟨(e | text) | a, s'⟩ <;>
    rw [hr] at within undone answer
  · exact ⟨fun _ => within.tallied (undone nofun), nofun⟩
  · exact ⟨fun _ => { within.toAside with store := undone nofun, metrics := within.metrics }, nofun⟩
  · exact ⟨nofun, fun _ => congrArg (·.countEvent t) within.metrics⟩
  · nofun
  · nofun
  · exact fun _ _ => answer () rfl

theorem asked_pure {a : α} (h : P a s.store) : Obeys Asked (Pure.pure a : Act σ κ α) s P :=
  ⟨⟨nofun, rfl, Nat.le_refl _, rfl, rfl, rfl, rfl⟩, by intro b hb; cases hb; exact h⟩

end Obeys

end Act

open Act

variable {κ : Type}

/-! ## Acceptance and reclaim -/

/-- a check whose refusal is counted -/
theorem check_obeys {α : Type} (r : Except Error α) (s : Site Memory κ) :
    Obeys Tallied (counted (ofExcept r)) s fun a _ => r = .ok a := by
  have checked : Obeys Silent (Act.ofExcept r) s fun a _ => r = .ok a := Obeys.ofExcept fun _ h => h
  exact checked.tallied_counted

/-- What a check lets pass is the parcel, expected, with the surcharge of its package. -/
theorem checkAcceptance_packs (a : Acceptance) (s : Site Memory κ) :
    Obeys Tallied (checkAcceptance a) s fun o _ => ∃ package, Package.parse a.package = .ok package ∧
      o = Order.addSurcharge ⟨a.orderId, a.userId, .expects, a.expiresAt, package, a.weight, a.price⟩ := by
  unfold checkAcceptance
  refine (Obeys.readClock.tallied nofun).bind fun now s₁ _ _ => ?_
  dsimp only
  split_ifs
  · rw [fail_bind]; exact Obeys.tallied_fail _
  refine (check_obeys _ s₁).bind fun package s₂ _ parsed => ?_
  refine (storedOrder_obeys _ s₂).tallied_attempt.bind fun r s₃ _ _ => ?_
  have rest : Obeys Tallied (do
      let order : Order := ⟨a.orderId, a.userId, .expects, a.expiresAt, package, a.weight, a.price⟩
      counted (ofExcept order.checkWeight)
      let order := order.addSurcharge
      counted (ofExcept order.checkPrice)
      return order) s₃ fun o _ => ∃ package, Package.parse a.package = .ok package ∧
        o = Order.addSurcharge ⟨a.orderId, a.userId, .expects, a.expiresAt, package, a.weight, a.price⟩ := by
    refine (check_obeys _ s₃).bind fun _ s₄ _ _ => (check_obeys _ s₄).bind fun _ s₅ _ _ => ?_
    exact Obeys.tallied (Obeys.pure ⟨package, parsed, rfl⟩) nofun
  split
  · rw [fail_bind]; exact Obeys.tallied_fail _
  · exact rest
  · rw [fail_bind]; exact Obeys.tallied_fail _

theorem checkAcceptance_obeys (a : Acceptance) (s : Site Memory κ) :
    Obeys Tallied (checkAcceptance a) s fun o _ => o.id = a.orderId ∧ o.status = .expects := by
  refine (checkAcceptance_packs a s).mono fun o _ packed => ?_
  obtain ⟨package, -, rfl⟩ := packed
  exact ⟨rfl, rfl⟩

theorem storeAccepted_obeys {o : Order} (new : o.status = .expects) (s : Site Memory κ) :
    Obeys (Booked .orderAccepted) (storeAccepted o) s fun _ m => s.store.Changes (.accept o) m :=
  Obeys.booked (transaction_obeys fun s' hs => hs ▸ acceptWork_obeys new s') .orderAccepted

theorem storeReclaimed_obeys (id : Nat) (s : Site Memory κ) :
    Obeys (Booked .orderReturnedToCourier) (storeReclaimed id) s fun _ m =>
      ∃ now, s.store.Changes (.reclaim now id) m :=
  Obeys.booked (transaction_obeys fun s' hs => hs ▸ reclaimWork_obeys id s') .orderReturnedToCourier

/-! ## The cache -/

section Cache

variable {σ : Type}

theorem onCache_obeys {α : Type} (op : Instant → CacheAccess κ α) (s : Site σ κ) :
    Obeys Asked (onCache op) s fun _ m => m = s.store := by
  constructor <;> rw [onCache_run]
  · refine ⟨fun e he => ?_, rfl, Nat.le_refl _, rfl, rfl, rfl, rfl⟩
    rcases hr : (op s.clock.current s.cache).1 with (_ | _) | _ <;> rw [hr] at he <;> cases he
  · exact fun _ _ => rfl

theorem askCache_obeys {α : Type} {p : Point} (hp : p ≠ .commit) (op : Instant → CacheAccess κ α) (s : Site σ κ) :
    Obeys Asked (askCache p op) s fun _ m => m = s.store := by
  have met : Obeys Silent (arrive p false) s fun _ m => m = s.store := Obeys.arrive false hp
  have reached : Obeys Asked (attempt (arrive p false)) s fun _ _ => True :=
    ⟨met.attempt.law.asked (attempt_granted _ s), fun _ _ => trivial⟩
  refine reached.bind fun r s₁ h₁ _ => ?_
  rw [← h₁.store]
  split
  · exact onCache_obeys op s₁
  · exact Obeys.asked_pure rfl

variable [HistoryCache κ]

theorem cachedHistory_obeys (id : Nat) (s : Site σ κ) : Obeys Asked (cachedHistory id) s fun _ m => m = s.store :=
  (askCache_obeys (by decide) _ s).bind fun _ _ _ h => Obeys.asked_pure h

theorem keepHistory_obeys (id : Nat) (history : List HistoryEntry) (s : Site σ κ) :
    Obeys Asked (keepHistory id history) s fun _ m => m = s.store := by
  have seen : Obeys Asked (get : Act σ κ (Site σ κ)) s fun _ m => m = s.store :=
    ⟨(Silent.refl s).asked nofun, fun _ _ => rfl⟩
  refine seen.bind fun _ s₁ _ h₁ => ?_
  exact h₁ ▸ (askCache_obeys (by decide) _ s₁).bind fun _ _ _ h => Obeys.asked_pure h

theorem dropHistory_obeys (id : Nat) (s : Site σ κ) : Obeys Asked (dropHistory id) s fun _ m => m = s.store :=
  (askCache_obeys (by decide) _ s).bind fun _ _ _ h => Obeys.asked_pure h

theorem drops_obeys (ids : List Nat) (s : Site σ κ) : Obeys Asked (ids.forM dropHistory) s fun _ m => m = s.store := by
  induction ids generalizing s with
  | nil => exact Obeys.asked_pure rfl
  | cons id ids ih =>
    exact (dropHistory_obeys id s).bind fun _ s₁ _ dropped => dropped ▸ ih s₁

end Cache

end PickupPoint
