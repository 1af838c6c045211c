/-
What a change of one order makes of a store in memory: the row of the order changes, one history entry tells the
status that the order takes, and one event tells the outside.

`Memory.Changes m c m'` says all that a change can do, and under which conditions; `Memory.Changed` is a run of
changes, one after the other. What is to be shown of every store that the service leaves is shown of one change
(`Memory.Changed.keeps`). The history of an order only grows, and only by changes of that order
(`Memory.Changed.orderHistory`).

Two stores are `blurred` alike if they differ in times and event ids alone, which no change looks at
(`blurred_recorded`).
-/
import PickupPoint.Store.Memory
import PickupPoint.Service.Process

namespace PickupPoint

theorem OrderTable.find?_id {t : OrderTable} {id : Nat} {o : Order} (h : t.find? id = some o) : o.id = id := by
  simpa using List.find?_some h

/-- the status that an order takes by an action that goes through -/
def Action.status : Action → Status
  | .takeBack => .returned
  | .issue | .unspecified => .accepted

/-- the event of an action that goes through -/
def Action.eventType : Action → EventType
  | .takeBack => .orderReturnedByClient
  | .issue | .unspecified => .orderIssued

/-- What an action makes of an order, and of which orders: a client collects what is expected and brings back what is
accepted. -/
theorem Order.after_ok {o o' : Order} {action : Action} {now : Instant} {t : EventType}
    (h : o.after action now = .ok (o', t)) :
    t = action.eventType ∧
      ((action = .issue ∧ o.status = .expects ∧
          o' = { o with status := .accepted, expiresAt := returnDeadline now }) ∨
        (action = .takeBack ∧ o.status = .accepted ∧ o' = { o with status := .returned })) := by
  cases action with
  | unspecified => cases h
  | issue =>
    simp only [after] at h
    split at h
    · rename_i hs
      cases h; exact ⟨rfl, .inl ⟨rfl, hs, rfl⟩⟩
    all_goals cases h
  | takeBack =>
    simp only [after] at h
    split at h
    · rename_i hs
      cases h; exact ⟨rfl, .inr ⟨rfl, hs, rfl⟩⟩
    · cases h

theorem Order.after_status {o o' : Order} {action : Action} {now : Instant} {t : EventType}
    (h : o.after action now = .ok (o', t)) : o'.status = action.status := by
  obtain ⟨_, ⟨rfl, _, rfl⟩ | ⟨rfl, _, rfl⟩⟩ := after_ok h <;> rfl

theorem Order.after_id {o o' : Order} {action : Action} {now : Instant} {t : EventType}
    (h : o.after action now = .ok (o', t)) : o'.id = o.id := by
  obtain ⟨_, ⟨_, _, rfl⟩ | ⟨_, _, rfl⟩⟩ := after_ok h <;> rfl

/-- What is stored for an action is stored in place of the row that was found. -/
theorem Order.after_found {table : OrderTable} {o o' : Order} {action : Action} {now : Instant} {t : EventType}
    {id : Nat} (found : table.find? id = some o) (h : o.after action now = .ok (o', t)) : o'.id = id :=
  (after_id h).trans (OrderTable.find?_id found)

/-- No action goes through twice on the same order. -/
theorem Order.after_twice {o o' : Order} {action : Action} {now now' : Instant} {t : EventType}
    (h : o.after action now = .ok (o', t)) (p : Order × EventType) : o'.after action now' ≠ .ok p := by
  intro h'
  obtain ⟨_, ⟨rfl, hs, rfl⟩ | ⟨rfl, hs, rfl⟩⟩ := after_ok h <;>
    obtain ⟨_, ⟨_, hs', _⟩ | ⟨_, hs', _⟩⟩ := after_ok h' <;> simp_all

/-! ## Changes -/

/-- when a change was written down and told, and under which event id -/
structure Stamp where
  written : Instant
  told : Instant
  eventId : Uuid

inductive Change where
  | accept (o : Order)
  | process (userId : Nat) (action : Action) (now : Instant) (id : Nat)
  | reclaim (now : Instant) (id : Nat)

namespace Change

def orderId : Change → Nat
  | .accept o => o.id
  | .process _ _ _ id | .reclaim _ id => id

/-- the status that the order takes -/
def status : Change → Status
  | .accept _ => .expects
  | .process _ action _ _ => action.status
  | .reclaim _ _ => .deleted

/-- the event that tells of it -/
def eventType : Change → EventType
  | .accept _ => .orderAccepted
  | .process _ action _ _ => action.eventType
  | .reclaim _ _ => .orderReturnedToCourier

end Change

namespace Memory

/-- the store with other orders, after an order took a status -/
def recorded (m : Memory) (orders : OrderTable) (t : EventType) (actor : Actor) (o : Order) (status : Status)
    (st : Stamp) : Memory where
  orders := orders
  history := m.history ++ [⟨(m.historyIds + 1 : Nat), o.id, status, st.written⟩]
  outbox := m.outbox ++ [Event.about st.eventId st.told t actor o status]
  historyIds := m.historyIds + 1

/-- what a change makes of a store -/
inductive Changes (m : Memory) : Change → Memory → Prop
  | accepted {o : Order} (st : Stamp) (free : m.orders.find? o.id = none) (new : o.status = .expects) :
    Changes m (.accept o) (m.recorded (m.orders.put o) .orderAccepted (.courier o.userId) o o.status st)
  | processed {o o' : Order} {userId : Nat} {action : Action} {now : Instant} {id : Nat} {t : EventType} (st : Stamp)
    (found : m.orders.find? id = some o) (own : o.userId = userId) (due : ¬ o.expiresAt < now)
    (after : o.after action now = .ok (o', t)) :
    Changes m (.process userId action now id) (m.recorded (m.orders.put o') t (.client userId) o' o'.status st)
  | reclaimed {o : Order} {now : Instant} {id : Nat} (st : Stamp) (found : m.orders.find? id = some o)
    (free : o.status = .returned ∨ (o.status ≠ .accepted ∧ ¬ now < o.expiresAt)) :
    Changes m (.reclaim now id)
      (m.recorded (m.orders.erase id) .orderReturnedToCourier (.courier o.userId) o .deleted st)

/-- what changes make of a store, one after the other -/
inductive Changed : Memory → List Change → Memory → Prop
  | nil (m : Memory) : Changed m [] m
  | cons {m m₁ m₂ : Memory} {c : Change} {cs : List Change} (head : m.Changes c m₁) (tail : Changed m₁ cs m₂) :
    Changed m (c :: cs) m₂

theorem Changes.changed {m m' : Memory} {c : Change} (h : m.Changes c m') : m.Changed [c] m' := .cons h (.nil m')

theorem Changed.append {m m₁ m₂ : Memory} {cs ds : List Change} (h₁ : m.Changed cs m₁) (h₂ : m₁.Changed ds m₂) :
    m.Changed (cs ++ ds) m₂ := by
  induction h₁ with
  | nil => exact h₂
  | cons head _ ih => exact .cons head (ih h₂)

/-- What every change keeps, a run of changes keeps. -/
theorem Changed.keeps {P : Memory → Prop} (hP : ∀ {m c m'}, P m → m.Changes c m' → P m') {m m' : Memory}
    {cs : List Change} (h : m.Changed cs m') (hm : P m) : P m' := by
  induction h with
  | nil => exact hm
  | cons head _ ih => exact ih (hP hm head)

/-- A change writes one entry and one event, which agree on the order and its status. -/
theorem Changes.appended {m m' : Memory} {c : Change} (h : m.Changes c m') :
    ∃ (written : Instant) (event : Event),
      m'.history = m.history ++ [⟨(m.historyIds + 1 : Nat), c.orderId, c.status, written⟩] ∧
      m'.historyIds = m.historyIds + 1 ∧ m'.outbox = m.outbox ++ [event] ∧
      event.order.id = c.orderId ∧ event.order.status = c.status ∧ event.eventType = c.eventType := by
  cases h with
  | @accepted o st free new =>
    exact ⟨st.written, _, by simp [recorded, Change.orderId, Change.status, new], rfl, rfl, rfl, new, rfl⟩
  | @processed o o' userId action now id t st found own due after =>
    have hid : o'.id = id := Order.after_found found after
    have hs : o'.status = action.status := Order.after_status after
    exact ⟨st.written, _, by simp [recorded, Change.orderId, Change.status, hid, hs], rfl, rfl, hid, hs,
      (Order.after_ok after).1⟩
  | @reclaimed o now id st found free =>
    have hid : o.id = id := OrderTable.find?_id found
    exact ⟨st.written, _, by simp [recorded, Change.orderId, Change.status, hid], rfl, rfl, hid, rfl, rfl⟩

/-! ## Histories -/

/-- A change adds to the history of its own order, and to no other. -/
theorem Changes.orderHistory {m m' : Memory} {c : Change} (h : m.Changes c m') (id : Nat) :
    ∃ new, m'.orderHistory id = m.orderHistory id ++ new ∧ (new = [] ↔ c.orderId ≠ id) := by
  obtain ⟨written, -, hh, -⟩ := h.appended
  by_cases hid : c.orderId = id
  · exact ⟨[⟨(m.historyIds + 1 : Nat), c.orderId, c.status, written⟩],
      by simp [Memory.orderHistory, hh, hid], by simp [hid]⟩
  · exact ⟨[], by simp [Memory.orderHistory, hh, hid], by simp [hid]⟩

theorem Changed.orderHistory {m m' : Memory} {cs : List Change} (h : m.Changed cs m') (id : Nat) :
    ∃ new, m'.orderHistory id = m.orderHistory id ++ new ∧ (new = [] ↔ ∀ c ∈ cs, c.orderId ≠ id) := by
  induction h with
  | nil => exact ⟨[], by simp, by simp⟩
  | cons head _ ih =>
    obtain ⟨new, hnew, hc⟩ := head.orderHistory id
    obtain ⟨more, hmore, hcs⟩ := ih
    exact ⟨new ++ more, by rw [hmore, hnew, List.append_assoc], by simp [hc, hcs]⟩

theorem Changed.history_prefix {m m' : Memory} {cs : List Change} (h : m.Changed cs m') (id : Nat) :
    m.orderHistory id <+: m'.orderHistory id := by
  obtain ⟨new, hnew, -⟩ := h.orderHistory id
  exact ⟨new, hnew.symm⟩

theorem Changed.history_eq {m m' : Memory} {cs : List Change} (h : m.Changed cs m') {id : Nat}
    (others : ∀ c ∈ cs, c.orderId ≠ id) : m'.orderHistory id = m.orderHistory id := by
  obtain ⟨new, hnew, hcs⟩ := h.orderHistory id
  rw [hnew, hcs.2 others, List.append_nil]

/-! ## Up to times and event ids -/

/-- the store with every time and every event id the same -/
def blurred (m : Memory) : Memory :=
  { m with
    history := m.history.map ({ · with createdAt := ⟨0, 0⟩ })
    outbox := m.outbox.map ({ · with eventId := ⟨0⟩, timestamp := ⟨0, 0⟩ }) }

theorem blurred_recorded {m n : Memory} (h : m.blurred = n.blurred) (orders : OrderTable) (t : EventType)
    (actor : Actor) (o : Order) (status : Status) (st st' : Stamp) :
    (m.recorded orders t actor o status st).blurred = (n.recorded orders t actor o status st').blurred := by
  simp only [blurred, Memory.mk.injEq] at h
  obtain ⟨_, hh, hb, hi⟩ := h
  simp [blurred, recorded, Event.about, hh, hb, hi]

theorem orders_eq_of_blurred {m n : Memory} (h : m.blurred = n.blurred) : m.orders = n.orders := by
  show m.blurred.orders = n.blurred.orders
  rw [h]

/-- What is possible on a store is possible on one that differs in times and event ids alone. -/
theorem Changes.possible {m n m' : Memory} {c : Change} (h : m.Changes c m') (hmn : m.blurred = n.blurred) :
    ∃ n', n.Changes c n' := by
  have horders := orders_eq_of_blurred hmn
  cases h with
  | accepted st free new => exact ⟨_, .accepted st (horders ▸ free) new⟩
  | processed st found own due after => exact ⟨_, .processed st (horders ▸ found) own due after⟩
  | reclaimed st found free => exact ⟨_, .reclaimed st (horders ▸ found) free⟩

/-- Up to times and event ids a change makes one store of a store. -/
theorem Changes.blurred {m n m' n' : Memory} {c : Change} (h : m.Changes c m') (hmn : m.blurred = n.blurred)
    (h' : n.Changes c n') : m'.blurred = n'.blurred := by
  have horders := orders_eq_of_blurred hmn
  cases h with
  | accepted st free new =>
    cases h' with
    | accepted st' _ _ => rw [horders]; exact blurred_recorded hmn ..
  | processed st found own due after =>
    cases h' with
    | processed st' found' _ _ after' =>
      rw [horders, found'] at found
      cases found
      rw [after'] at after
      cases after
      rw [horders]; exact blurred_recorded hmn ..
  | reclaimed st found free =>
    cases h' with
    | reclaimed st' found' _ =>
      rw [horders, found'] at found
      cases found
      rw [horders]; exact blurred_recorded hmn ..

end Memory
end PickupPoint
