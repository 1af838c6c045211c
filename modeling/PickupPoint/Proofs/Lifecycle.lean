/-
The life of an order, read off its history.

An order arrives, and either goes back to the courier at once or is collected, brought back and then goes back; an id
may live any number of such lives, one after the other (`lives`). `Inv` ties the rows, the history and the count of
history ids together. A change of one order keeps it (`inv_step`), so it holds of every store that calls come to, in
whatever order they take their steps and whichever of them fail (`lifecycle_of_run`).
-/
import Mathlib.Computability.Language
import PickupPoint.Proofs.Runs

namespace PickupPoint

open Computability

/-- what the history of an order says from its arrival until it is gone -/
def lives : Language Status := {[.expects, .deleted], [.expects, .accepted, .returned, .deleted]}

/-- what it says of the life that an order is in -/
def begun : Option Order → List Status
  | none => []
  | some o =>
    match o.status with
    | .expects => [.expects]
    | .accepted => [.expects, .accepted]
    | .returned => [.expects, .accepted, .returned]
    | .deleted => []

/-- the statuses that an order took, oldest first -/
def Memory.statuses (m : Memory) (id : Nat) : List Status := (m.orderHistory id).map (·.status)

/-- what the history says of every order and its row -/
structure Lifecycle (m : Memory) : Prop where
  /-- an order lives no more than one life after the other -/
  lived : ∀ id, ∃ word ∈ lives∗, m.statuses id <+: word
  /-- an order has a row while it lives -/
  row_iff : ∀ id, (∃ o, m.orders.find? id = some o) ↔
    m.statuses id ≠ [] ∧ (m.statuses id).getLast? ≠ some .deleted
  status : ∀ id o, m.orders.find? id = some o → (m.statuses id).getLast? = some o.status
  not_deleted : ∀ id o, m.orders.find? id = some o → o.status ≠ .deleted
  /-- the ids of the history are 1, 2, … -/
  ids : m.history.map (·.id) = (List.range' 1 m.history.length).map fun n : Nat => (n : Int)

namespace Lifecycle

/-- what a change keeps: the rows go with the last lives of the history -/
structure Inv (m : Memory) : Prop where
  lived : ∀ id, ∃ past ∈ lives∗, m.statuses id = past ++ begun (m.orders.find? id)
  present : ∀ id o, m.orders.find? id = some o → o.status ≠ .deleted
  ids : m.history.map (·.id) = (List.range' 1 m.historyIds).map fun n : Nat => (n : Int)

theorem inv_empty : Inv .empty where
  lived _ := ⟨[], Language.nil_mem_kstar _, rfl⟩
  present _ _ h := by cases h
  ids := rfl

theorem statuses_recorded (m : Memory) (orders : OrderTable) (t : EventType) (actor : Actor) (o : Order)
    (status : Status) (st : Stamp) (id : Nat) :
    (m.recorded orders t actor o status st).statuses id = m.statuses id ++ if o.id = id then [status] else [] := by
  by_cases h : o.id = id <;> simp [Memory.statuses, Memory.orderHistory, Memory.recorded, h]

theorem mem_lives {life : List Status} :
    life ∈ lives ↔ life = [.expects, .deleted] ∨ life = [.expects, .accepted, .returned, .deleted] :=
  Iff.rfl

/-- a life that is over is one more of the past -/
theorem past_append {past life : List Status} (hp : past ∈ lives∗) (hl : life ∈ lives) : past ++ life ∈ lives∗ := by
  have closed : lives∗ * lives ≤ lives∗ := kstar_mul_le_kstar
  exact closed (Language.append_mem_mul hp hl)

/-- A record keeps the invariant if what it says of its order goes with the new row. -/
theorem Inv.recorded {m : Memory} (h : Inv m) {orders : OrderTable} {t : EventType} {actor : Actor} {o : Order}
    {status : Status} {st : Stamp} (others : ∀ id, id ≠ o.id → orders.find? id = m.orders.find? id)
    (life : ∀ past ∈ lives∗, ∃ past' ∈ lives∗,
      past ++ begun (m.orders.find? o.id) ++ [status] = past' ++ begun (orders.find? o.id))
    (present : ∀ o', orders.find? o.id = some o' → o'.status ≠ .deleted) :
    Inv (m.recorded orders t actor o status st) where
  lived id := by
    obtain ⟨past, hp, hs⟩ := h.lived id
    show ∃ past ∈ lives∗, _ = past ++ begun (orders.find? id)
    rw [statuses_recorded, hs]
    by_cases hid : o.id = id
    · subst hid
      rw [if_pos rfl]
      exact life past hp
    · rw [if_neg hid, others id (Ne.symm hid)]
      exact ⟨past, hp, by simp⟩
  present id o' ho' := by
    change orders.find? id = some o' at ho'
    by_cases hid : id = o.id
    · exact present o' (hid ▸ ho')
    · exact h.present id o' (others id hid ▸ ho')
  ids := by
    show (m.history ++ [(⟨(m.historyIds + 1 : Nat), o.id, status, st.written⟩ : HistoryEntry)]).map (·.id) =
      (List.range' 1 (m.historyIds + 1)).map _
    rw [List.map_append, h.ids, List.range'_concat, List.map_append]
    simp [Int.add_comm]

theorem inv_step {m m' : Memory} {c : Change} (h : Inv m) (hc : m.Changes c m') : Inv m' := by
  cases hc with
  | @accepted o st free new =>
    have put : (m.orders.put o).find? o.id = some o := by rw [OrderTable.find?_put, if_pos rfl]
    refine h.recorded (fun id hid => ?_) (fun past hp => ?_) fun o' ho' => ?_
    · rw [OrderTable.find?_put, if_neg hid.symm]
    · exact ⟨past, hp, by simp [put, free, begun, new]⟩
    · rw [put] at ho'; cases ho'; simp [new]
  | @processed o o' userId action now id t st found own due after =>
    obtain rfl : o.id = id := OrderTable.find?_id found
    have hid : o'.id = o.id := Order.after_id after
    have put : (m.orders.put o').find? o'.id = some o' := by rw [OrderTable.find?_put, if_pos rfl]
    refine h.recorded (fun id hne => ?_) (fun past hp => ?_) fun x hx => ?_
    · rw [OrderTable.find?_put, if_neg hne.symm]
    · refine ⟨past, hp, ?_⟩
      rw [put, hid, found]
      obtain ⟨_, ⟨_, hs, rfl⟩ | ⟨_, hs, rfl⟩⟩ := Order.after_ok after <;> simp [begun, hs]
    · rw [put] at hx
      cases hx
      obtain ⟨_, ⟨_, _, rfl⟩ | ⟨_, _, rfl⟩⟩ := Order.after_ok after <;> simp
  | @reclaimed o now id st found free =>
    obtain rfl : o.id = id := OrderTable.find?_id found
    have gone : (m.orders.erase o.id).find? o.id = none := by rw [OrderTable.find?_erase, if_pos rfl]
    have live := h.present _ o found
    refine h.recorded (fun id hne => ?_) (fun past hp => ?_) fun x hx => ?_
    · rw [OrderTable.find?_erase, if_neg hne.symm]
    · -- the order was expected or returned, so a life is over
      refine ⟨past ++ (begun (some o) ++ [.deleted]), past_append hp (mem_lives.2 ?_), by simp [found, gone, begun]⟩
      rcases hs : o.status <;> simp_all [begun]
    · rw [gone] at hx; cases hx

/-- What has begun is the first part of a life. -/
theorem begun_life {row : Option Order} (h : ∀ o, row = some o → o.status ≠ .deleted) :
    ∃ life ∈ lives, begun row <+: life := by
  rcases row with _ | o
  · exact ⟨_, mem_lives.2 (.inl rfl), List.nil_prefix⟩
  · rcases hs : o.status with _ | _ | _ | _
    · exact ⟨_, mem_lives.2 (.inl rfl), by simp [begun, hs]⟩
    · exact ⟨_, mem_lives.2 (.inr rfl), by simp [begun, hs]⟩
    · exact ⟨_, mem_lives.2 (.inr rfl), by simp [begun, hs]⟩
    · exact absurd hs (h o rfl)

/-- It ends with the status of the row. -/
theorem begun_last {o : Order} (h : o.status ≠ .deleted) : (begun (some o)).getLast? = some o.status := by
  rcases hs : o.status <;> simp_all [begun]

/-- The past ends where an order was gone, if there is any. -/
theorem past_last {past : List Status} (hp : past ∈ lives∗) (hne : past ≠ []) : past.getLast? = some .deleted := by
  obtain ⟨all, rfl, hall⟩ := Language.mem_kstar.1 hp
  rcases List.eq_nil_or_concat all with rfl | ⟨before, life, rfl⟩
  · exact absurd rfl hne
  · have last : life.getLast? = some .deleted := by
      rcases mem_lives.1 (hall life (by simp)) with rfl | rfl <;> rfl
    simp [last]

theorem of_inv {m : Memory} (h : Inv m) : Lifecycle m := by
  have status : ∀ id o, m.orders.find? id = some o → (m.statuses id).getLast? = some o.status := by
    intro id o ho
    obtain ⟨past, _, hs⟩ := h.lived id
    rw [hs, ho, List.getLast?_append, begun_last (h.present id o ho)]
    rfl
  refine ⟨fun id => ?_, fun id => ⟨fun ⟨o, ho⟩ => ?_, fun ⟨hne, hlast⟩ => ?_⟩, status, h.present, ?_⟩
  · obtain ⟨past, hp, hs⟩ := h.lived id
    obtain ⟨life, hl, hpre⟩ := begun_life (h.present id)
    exact ⟨past ++ life, past_append hp hl, hs ▸ (List.prefix_append_right_inj past).2 hpre⟩
  · have last := status id o ho
    refine ⟨fun hnil => ?_, fun hdel => ?_⟩
    · rw [hnil] at last; cases last
    · exact h.present id o ho (Option.some.inj (last.symm.trans hdel))
  · rcases ho : m.orders.find? id with _ | o
    · obtain ⟨past, hp, hs⟩ := h.lived id
      rw [ho] at hs
      simp only [begun, List.append_nil] at hs
      rw [hs] at hne hlast
      exact absurd (past_last hp hne) hlast
    · exact ⟨o, rfl⟩
  · have count : m.history.length = m.historyIds := by simpa using congrArg List.length h.ids
    rw [count]; exact h.ids

end Lifecycle

/-- **Lifecycle.** Whatever calls enter, in whatever order they take their steps, and whatever the clock reads and
faults refuse in between: every store that they come to from an empty one tells of whole lives and of those that have
begun. So does every store that a session comes to. -/
theorem lifecycle_of_run {κ : Type} [HistoryCache κ] (s : Site Memory κ) :
    (∀ moves : List (Move Memory κ), Lifecycle ((Pool.opened s).run moves).site.store) ∧
      ∀ calls : List Call, Lifecycle (Call.run { s with store := .empty } calls).store :=
  ⟨fun moves => Lifecycle.of_inv (Pool.opened_keeps Lifecycle.inv_step Lifecycle.inv_empty s moves),
    fun calls => Lifecycle.of_inv (Pool.session_keeps Lifecycle.inv_step Lifecycle.inv_empty s calls)⟩

end PickupPoint
