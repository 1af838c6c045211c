/-
The outbox tells what the history says, and is enough to know the orders by.

A reader of the events keeps a `Register` of the orders, with what events show of them. Entry by entry the outbox
agrees with the history, and a reader who replays it from the start knows exactly the orders that are stored
(`Faithful`). A change of one order keeps both (`faithful_step`), so they hold of every store that calls come to
(`outbox_of_run`).
-/
import Mathlib.Data.List.Forall2
import Mathlib.Logic.Function.Basic
import PickupPoint.Proofs.Runs

namespace PickupPoint

/-- the type of the event that tells of a status -/
def Status.eventType : Status → EventType
  | .expects => .orderAccepted
  | .accepted => .orderIssued
  | .returned => .orderReturnedByClient
  | .deleted => .orderReturnedToCourier

/-- an event and an entry of the history that are about one change -/
structure Event.Tells (e : Event) (entry : HistoryEntry) : Prop where
  order : e.order.id = entry.orderId
  status : e.order.status = entry.status
  eventType : e.eventType = entry.status.eventType

/-- orders by their ids, as events show them -/
abbrev Register := Nat → Option EventOrder

/-- what a reader knows after one more event -/
def Event.replay (r : Register) (e : Event) : Register :=
  match e.eventType with
  | .orderAccepted => Function.update r e.order.id (some ⟨e.order.id, e.order.userId, .expects⟩)
  | .orderIssued | .orderReturnedByClient =>
    Function.update r e.order.id ((r e.order.id).map ({ · with status := e.order.status }))
  | .orderReturnedToCourier => Function.update r e.order.id none

/-- what events show of an order -/
def Order.shown (o : Order) : EventOrder := ⟨o.id, o.userId, o.status⟩

def OrderTable.register (t : OrderTable) : Register := fun id => (t.find? id).map (·.shown)

/-- The outbox agrees with the history, and replays to the stored orders. -/
structure Faithful (m : Memory) : Prop where
  agrees : List.Forall₂ Event.Tells m.outbox m.history
  replays : m.outbox.foldl Event.replay (fun _ => none) = m.orders.register

theorem register_put (t : OrderTable) (o : Order) :
    (t.put o).register = Function.update t.register o.id (some o.shown) := by
  funext id
  rw [OrderTable.register, OrderTable.find?_put, Function.update_apply]
  by_cases h : o.id = id
  · rw [if_pos h, if_pos h.symm]; rfl
  · rw [if_neg h, if_neg (Ne.symm h)]; rfl

theorem register_erase (t : OrderTable) (id : Nat) : (t.erase id).register = Function.update t.register id none := by
  funext other
  rw [OrderTable.register, OrderTable.find?_erase, Function.update_apply]
  by_cases h : id = other
  · rw [if_pos h, if_pos h.symm]; rfl
  · rw [if_neg h, if_neg (Ne.symm h)]; rfl

theorem Change.eventType_status (c : Change) : c.eventType = c.status.eventType := by
  cases c with
  | accept | reclaim => rfl
  | process userId action => cases action <;> rfl

/-- A change shows a reader what it makes of the orders. -/
theorem replay_step {m m' : Memory} {c : Change} (hc : m.Changes c m') :
    ∃ e, m'.outbox = m.outbox ++ [e] ∧ e.replay m.orders.register = m'.orders.register := by
  cases hc with
  | @accepted o st free new =>
    refine ⟨_, rfl, ?_⟩
    show Function.update _ o.id (some ⟨o.id, o.userId, .expects⟩) = (m.orders.put o).register
    rw [register_put, Order.shown, new]
  | @processed o o' userId action now id t st found own due after =>
    have known : m.orders.register o'.id = some o.shown := by
      rw [Order.after_found found after, OrderTable.register, found]; rfl
    refine ⟨_, rfl, ?_⟩
    show Event.replay _ _ = (m.orders.put o').register
    -- the action changes nothing of the order that events show but its status
    have shown : o'.shown = { o.shown with status := o'.status } := by
      obtain ⟨_, ⟨_, _, rfl⟩ | ⟨_, _, rfl⟩⟩ := Order.after_ok after <;> rfl
    have overwritten : (Event.about st.eventId st.told t (.client userId) o' o'.status).replay m.orders.register =
        Function.update m.orders.register o'.id
          ((m.orders.register o'.id).map ({ · with status := o'.status })) := by
      obtain ⟨rfl, _⟩ := Order.after_ok after
      cases action <;> rfl
    rw [overwritten, known, register_put, shown]; rfl
  | @reclaimed o now id st found free =>
    obtain rfl : o.id = id := OrderTable.find?_id found
    refine ⟨_, rfl, ?_⟩
    show Function.update _ o.id none = (m.orders.erase o.id).register
    rw [register_erase]

theorem faithful_empty : Faithful .empty where
  agrees := .nil
  replays := rfl

theorem faithful_step {m m' : Memory} {c : Change} (h : Faithful m) (hc : m.Changes c m') : Faithful m' where
  agrees := by
    obtain ⟨written, e, hh, -, ho, hid, hs, ht⟩ := hc.appended
    rw [hh, ho]
    have told : e.Tells ⟨(m.historyIds + 1 : Nat), c.orderId, c.status, written⟩ :=
      ⟨hid, hs, ht.trans c.eventType_status⟩
    exact List.rel_append h.agrees (.cons told .nil)
  replays := by
    obtain ⟨e, ho, hr⟩ := replay_step hc
    rw [ho, List.foldl_append, h.replays]
    exact hr

/-- **Outbox.** Whatever calls enter, in whatever order they take their steps and whichever of them fail: the outbox
of every store that they come to from an empty one is faithful. So is that of every store that a session comes to. -/
theorem outbox_of_run {κ : Type} [HistoryCache κ] (s : Site Memory κ) :
    (∀ moves : List (Move Memory κ), Faithful ((Pool.opened s).run moves).site.store) ∧
      ∀ calls : List Call, Faithful (Call.run { s with store := .empty } calls).store :=
  ⟨Pool.opened_keeps faithful_step faithful_empty s, Pool.session_keeps faithful_step faithful_empty s⟩

end PickupPoint
