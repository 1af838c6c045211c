/-
What goes through where no faults are set.

`Smooth` is the law of acts that answer and leave no faults. A call that the store grants obeys it, and so do scopes
of work that does (`savepoint_smooth`, `transaction_smooth`). So an action that was possible on a store goes through
on every store that differs in times and event ids alone, and makes the same of it (`applyAction_smooth`).
-/
import PickupPoint.Proofs.Transactions

namespace PickupPoint

namespace Act

variable {σ κ α β : Type}

/-- an answer, and no faults -/
structure Smooth (s : Site σ κ) (h : Option Halt) (s' : Site σ κ) : Prop where
  answered : h = none
  faultless : s'.faults = []

instance : Composes (@Smooth σ κ) where
  comp _ h₂ := ⟨h₂.answered, h₂.faultless⟩

/-- An arrival where no faults are set changes nothing. -/
theorem arrive_faultless {s : Site σ κ} (hs : s.faults = []) (p : Point) (after : Bool) :
    arrive p after s = (.ok false, s) := by
  rw [arrive_run, hs, Fault.arrive_nil, ← hs]; rfl

theorem reachedAt_faultless {s : Site σ κ} (hs : s.faults = []) (p : Point) (op : Instant → Access σ α) :
    reachedAt p (onStore op) s = onStore op s := by
  unfold reachedAt
  rw [bind_run, arrive_faultless hs]
  dsimp only
  rw [bind_run]
  rcases hr : onStore op s with ⟨_ | a, s'⟩
  · rfl
  · have hs' : s'.faults = [] := by
      rw [onStore_run] at hr
      rw [← (Prod.mk.inj hr).2, ← hs]
    dsimp only
    rw [bind_run, arrive_faultless hs']
    rfl

namespace Obeys

variable {act : Act σ κ α} {s : Site σ κ} {P : α → σ → Prop}

/-- an act of which it is known what its answer means, once it is known to answer -/
theorem smooth (h : Obeys Aside act s P) (hs : s.faults = []) (granted : halt? (act s).1 = none) :
    Obeys Smooth act s P :=
  ⟨⟨granted, Fault.none_of_effects h.law.effects hs⟩, h.answer⟩

theorem smooth_pure {a : α} (hs : s.faults = []) (h : P a s.store) : Obeys Smooth (Pure.pure a : Act σ κ α) s P :=
  smooth (Obeys.pure h) hs rfl

/-- a call that the store grants -/
theorem smooth_call {p : Point} {op : Instant → Access σ α} (h : Obeys Aside (Act.reachedAt p (Act.onStore op)) s P)
    (hs : s.faults = []) (granted : ∀ now, ∃ a, (op now s.store).1 = .ok a) :
    Obeys Smooth (Act.reachedAt p (Act.onStore op)) s P := by
  refine h.smooth hs ?_
  obtain ⟨a, ha⟩ := granted s.clock.current
  rw [reachedAt_faultless hs, onStore_run, ha]; rfl

theorem smooth_attempt (h : Obeys Smooth act s P) :
    Obeys Smooth (Act.attempt act) s fun r m => ∃ a, r = .ok a ∧ P a m := by
  obtain ⟨⟨answered, faultless⟩, answer⟩ := h
  constructor <;> rw [attempt_run] <;> rcases hr : act s with ⟨(_ | _) | a, s'⟩ <;>
    rw [hr] at answered faultless answer <;> try cases answered
  · exact ⟨rfl, faultless⟩
  · intro b hb; cases hb; exact ⟨a, rfl, answer a rfl⟩

theorem smooth_run (h : Obeys Smooth act s P) : ∃ a s', act s = (.ok a, s') ∧ s'.faults = [] ∧ P a s'.store := by
  obtain ⟨⟨answered, faultless⟩, answer⟩ := h
  rcases hr : act s with ⟨_ | a, s'⟩ <;> rw [hr] at answered faultless answer
  · cases answered
  · exact ⟨a, s', rfl, faultless, answer a rfl⟩

end Obeys

end Act

open Act

variable {κ α : Type}

/-! ## Scopes -/

theorem closedAt_smooth {act : Act Memory κ α} {s : Site Memory κ} {P : α → Memory → Prop} (h : Obeys Smooth act s P)
    (p : Point) (after : Bool) : Obeys Smooth (closedAt p after act) s P := by
  refine h.bind fun a s₁ h₁ ha => ?_
  have ended : Obeys Smooth (arrive p after) s₁ fun _ m => m = s₁.store := by
    refine Obeys.smooth (Obeys.arrive_any p after) h₁.faultless ?_
    rw [arrive_faultless h₁.faultless]; rfl
  exact ended.bind fun _ s₂ h₂ hm => Obeys.smooth_pure h₂.faultless (hm ▸ ha)

theorem transaction_smooth {act : Act Memory κ α} {s : Site Memory κ} {P : α → Memory → Prop} (hs : s.faults = [])
    (h : Obeys Smooth act s P) : Obeys Smooth (transaction act) s P := by
  obtain ⟨a, s', hr, hf, ha⟩ := (closedAt_smooth h .commit false).smooth_run
  constructor <;> rw [transaction_run, arrive_faultless hs] <;> dsimp only <;> rw [hr]
  · exact ⟨rfl, hf⟩
  · intro b hb; cases hb; exact ha

theorem savepoint_smooth {act : Act Memory κ α} {s : Site Memory κ} {P : α → Memory → Prop} (hs : s.faults = [])
    (h : Obeys Smooth act s P) : Obeys Smooth (savepoint act) s fun r m => ∃ a, r = some a ∧ P a m := by
  obtain ⟨a, s', hr, hf, ha⟩ := (closedAt_smooth h .txSavepoint true).smooth_run
  constructor <;> rw [savepoint_run, arrive_faultless hs] <;> dsimp only <;> rw [hr]
  · exact ⟨rfl, hf⟩
  · intro b hb; cases hb; exact ⟨a, rfl, ha⟩

/-! ## One id -/

section Calls

variable {s : Site Memory κ} (hs : s.faults = [])
include hs

theorem findOrder_smooth {id : Nat} {o : Order} (found : s.store.orders.find? id = some o) :
    Obeys Smooth (findOrder id) s fun o' m => m = s.store ∧ o' = o := by
  refine Obeys.smooth_call ((findOrder_obeys id s).mono fun o' m h => ⟨h.1, ?_⟩) hs fun _ => ⟨o, ?_⟩
  · exact Option.some.inj (h.2.symm.trans found)
  · show (Memory.find id s.store).1 = _
    simp [Memory.find, found]

theorem updateOrder_smooth {o o' : Order} (found : s.store.orders.find? o'.id = some o) :
    Obeys Smooth (updateOrder o') s fun _ m => m = s.store.seed o' := by
  refine Obeys.smooth_call (updateOrder_obeys o' s) hs fun _ => ⟨(), ?_⟩
  show (Memory.update o' s.store).1 = _
  simp [Memory.update, found]

theorem appendHistory_smooth (id : Nat) (status : Status) :
    Obeys Smooth (appendHistory id status) s fun _ _ => True :=
  Obeys.smooth_call ((appendHistory_obeys id status s).mono fun _ _ _ => trivial) hs fun _ => ⟨(), rfl⟩

theorem appendEvent_smooth (t : EventType) (actor : Actor) (o : Order) (status : Status) :
    Obeys Smooth (appendEvent t actor o status) s fun _ _ => True := by
  refine (Obeys.newEventId.smooth hs rfl).bind fun id s₁ h₁ _ => ?_
  refine (Obeys.readClock.smooth h₁.faultless rfl).bind fun time s₂ h₂ _ => ?_
  refine Obeys.smooth_call ?_ h₂.faultless fun _ => ⟨(), rfl⟩
  exact Obeys.call (by decide) fun _ _ _ _ => trivial

/-- An action that is possible goes through. -/
theorem applyAction_granted {userId : Nat} {action : Action} {now : Instant} {id : Nat} {m : Memory}
    (h : s.store.Changes (.process userId action now id) m) :
    Obeys Smooth (applyAction userId action now id) s fun _ _ => True := by
  cases h with
  | @processed o o' _ _ _ _ t st found own due after =>
    refine (findOrder_smooth hs found).bind fun x s₁ h₁ ⟨hm, hx⟩ => ?_
    subst hx
    dsimp only
    rw [if_neg (not_not.2 own), if_neg due]
    have possible : Obeys Smooth (Act.ofExcept (x.after action now)) s₁ fun p m => p = (o', t) ∧ m = s₁.store := by
      rw [after]; exact Obeys.smooth_pure h₁.faultless ⟨rfl, rfl⟩
    refine possible.bind fun p s₂ h₂ ⟨hp, hm₂⟩ => ?_
    subst hp
    have stored : s₂.store.orders.find? o'.id = some x := by
      rw [hm₂, hm, Order.after_found found after, found]
    refine (updateOrder_smooth h₂.faultless stored).bind fun _ s₃ h₃ _ => ?_
    refine (appendHistory_smooth h₃.faultless _ _).bind fun _ s₄ h₄ _ => ?_
    refine (appendEvent_smooth h₄.faultless _ _ _ _).bind fun _ s₅ h₅ _ => ?_
    exact Obeys.smooth_pure h₅.faultless trivial

/-- It makes the same of every store that differs in times and event ids alone. -/
theorem applyAction_smooth {userId : Nat} {action : Action} {now : Instant} {id : Nat} {m m' : Memory}
    (hm : m.blurred = s.store.blurred) (h : m.Changes (.process userId action now id) m') :
    Obeys Smooth (applyAction userId action now id) s fun t m'' =>
      t = action.eventType ∧ m'.blurred = m''.blurred := by
  obtain ⟨n, hn⟩ := h.possible hm
  have answer : Obeys Aside (applyAction userId action now id) s _ := applyAction_obeys userId action now id s
  exact ⟨(applyAction_granted hs hn).law, fun t ht => ⟨(answer.answer t ht).1, h.blurred hm (answer.answer t ht).2⟩⟩

end Calls

end PickupPoint
