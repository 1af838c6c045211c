/-
Changes of one order are all or nothing.

`accept` and `reclaim` look, open a transaction, write three times and commit, and any of these steps may be refused,
by a rule or by a fault. `single_order_atomic` says that a refusal at any of them leaves nothing but one failure
counted under its own code, and that an answer comes with one entry of the history, one event of the outbox and one
event counted. The store, the input and the faults are arbitrary.
-/
import PickupPoint.Proofs.Tally

namespace PickupPoint

open Act

variable {κ α β : Type}

/-- an act that changes the order with an id, telling of it by one event, or changes nothing -/
structure Atomic (act : Act Memory κ α) (id : Nat) (t : EventType) : Prop where
  refused (s s' : Site Memory κ) (e : Error) (h : act s = (.error (.error e), s')) :
    s'.store = s.store ∧ s'.cache = s.cache ∧ s'.metrics.events = s.metrics.events ∧
      ∀ c, s'.metrics.failures c = s.metrics.failures c + if c = e.code then 1 else 0
  answered (s s' : Site Memory κ) (a : α) (h : act s = (.ok a, s')) :
    (∃ entry, entry.orderId = id ∧ s'.store.history = s.store.history ++ [entry]) ∧
      (∃ event, event.order.id = id ∧ event.eventType = t ∧ s'.store.outbox = s.store.outbox ++ [event]) ∧
      (∀ u, s'.metrics.events u = s.metrics.events u + if u = t then 1 else 0) ∧
      s'.metrics.failures = s.metrics.failures

/-- what a change of one order comes to once its cached history is dropped, which may panic but refuses nothing -/
structure Closed (t : EventType) (s : Site Memory κ) (h : Option Halt) (s' : Site Memory κ) : Prop where
  refused : ∀ e, h = some (.error e) → Tallied s h s'
  answered : h = none → s'.metrics = s.metrics.countEvent t

theorem Closed.of_booked {t : EventType} {s₁ s₂ s₃ : Site Memory κ} {h : Option Halt} (h₁ : Booked t s₁ none s₂)
    (h₂ : Asked s₂ h s₃) : Closed t s₁ h s₃ where
  refused e he := absurd he (h₂.granted e)
  answered _ := h₂.metrics.trans (h₁.answered rfl)

theorem Closed.after_tallied {t : EventType} {s₁ s₂ s₃ : Site Memory κ} {h : Option Halt} (h₁ : Tallied s₁ none s₂)
    (h₂ : Closed t s₂ h s₃) : Closed t s₁ h s₃ where
  refused e he := Composes.comp h₁ (h₂.refused e he)
  answered hh := by rw [h₂.answered hh, h₁.metrics]; rfl

/-- what an answer to a change of one order means -/
def OneChange (id : Nat) (t : EventType) (m m' : Memory) : Prop :=
  ∃ c, m.Changes c m' ∧ c.orderId = id ∧ c.eventType = t

theorem atomic_of_closed {act : Act Memory κ α} {id : Nat} {t : EventType}
    (h : ∀ s, Obeys (Closed t) act s fun _ m => OneChange id t s.store m) : Atomic act id t where
  refused s s' e hact := by
    have law := (h s).law
    rw [hact] at law
    have left := law.refused e rfl
    refine ⟨left.store, left.cache, left.events, fun c => ?_⟩
    rw [left.metrics]
    show (if c = e.code then _ else _) = _
    split_ifs <;> rfl
  answered s s' a hact := by
    have law := (h s).law
    have answer := (h s).answer a
    rw [hact] at law answer
    obtain ⟨c, hc, hid, ht⟩ := answer rfl
    obtain ⟨written, event, hh, _, ho, hi, _, he⟩ := hc.appended
    refine ⟨⟨_, hid, hh⟩, ⟨event, hi.trans hid, he.trans ht, ho⟩, fun u => ?_, ?_⟩ <;> rw [law.answered rfl]
    · show (if u = t then _ else _) = _
      split_ifs <;> rfl
    · rfl

theorem reclaim_obeys [HistoryCache κ] (id : Nat) (s : Site Memory κ) :
    Obeys (Closed .orderReturnedToCourier) (reclaim id) s fun _ m =>
      OneChange id .orderReturnedToCourier s.store m := by
  refine (storeReclaimed_obeys id s).seq (fun h => ⟨fun _ _ => h.halted nofun, nofun⟩) Closed.of_booked
    fun _ s₁ _ ⟨now, hc⟩ => ?_
  refine (dropHistory_obeys id s₁).bind fun _ s₂ _ h₂ => Obeys.asked_pure ?_
  exact ⟨_, h₂ ▸ hc, rfl, rfl⟩

theorem accept_obeys [HistoryCache κ] (a : Acceptance) (s : Site Memory κ) :
    Obeys (Closed .orderAccepted) (accept a) s fun _ m => OneChange a.orderId .orderAccepted s.store m := by
  refine (checkAcceptance_obeys a s).seq (fun h => ⟨fun _ _ => h, nofun⟩) Closed.after_tallied
    fun o s₁ h₁ ⟨hid, new⟩ => ?_
  refine (storeAccepted_obeys new s₁).seq (fun h => ⟨fun _ _ => h.halted nofun, nofun⟩) Closed.of_booked
    fun _ s₂ _ hc => ?_
  refine (dropHistory_obeys o.id s₂).bind fun _ s₃ _ h₃ => Obeys.asked_pure ?_
  exact ⟨.accept o, h₁.store ▸ h₃ ▸ hc, hid, rfl⟩

/-- **Single-order changes are atomic.** Accepting a parcel and taking an order back, on every site, for every input
and whatever faults are set. -/
theorem single_order_atomic [HistoryCache κ] (a : Acceptance) (id : Nat) :
    Atomic (accept a : Act Memory κ Order) a.orderId .orderAccepted ∧
      Atomic (reclaim id : Act Memory κ Status) id .orderReturnedToCourier :=
  ⟨atomic_of_closed (accept_obeys a), atomic_of_closed (reclaim_obeys id)⟩

end PickupPoint
