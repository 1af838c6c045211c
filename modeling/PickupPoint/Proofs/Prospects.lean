/-
What a store tells of one order, and which changes a call has ahead.

A store tells of an order by its row, its history and its events (`Memory.account`), and the change of another order
leaves all of it as it is (`Memory.Changed.account_eq`). `Progress.Ahead` says which changes a call may still make. A
step makes none but those, and no new ones come to be ahead (`step_ahead`), so a call that has nothing ahead for an
order never touches it (`step_spares`), and a whole call makes changes only that were ahead of it (`perform_ahead`). All
of it holds whatever faults are set.
-/
import PickupPoint.Proofs.Calls

namespace PickupPoint

open Act

/-! ## One order -/

/-- what a store tells of one order -/
structure Account where
  row : Option Order
  history : List HistoryEntry
  events : List Event
  deriving DecidableEq

/-- what is told of an id after an order was stored under it -/
def Account.withNew (acc : Account) (o : Order) (entryId : Int) (st : Stamp) : Account where
  row := some o
  history := acc.history ++ [⟨entryId, o.id, .expects, st.written⟩]
  events := acc.events ++ [Event.about st.eventId st.told .orderAccepted (.courier o.userId) o .expects]

namespace Memory

def account (m : Memory) (id : Nat) : Account :=
  ⟨m.orders.find? id, m.orderHistory id, m.outbox.filter (·.order.id = id)⟩

theorem account_recorded (m : Memory) (orders : OrderTable) (t : EventType) (actor : Actor) (o : Order)
    (status : Status) (st : Stamp) :
    (m.recorded orders t actor o status st).account o.id =
      ⟨orders.find? o.id,
        (m.account o.id).history ++ [⟨(m.historyIds + 1 : Nat), o.id, status, st.written⟩],
        (m.account o.id).events ++ [Event.about st.eventId st.told t actor o status]⟩ := by
  simp [account, recorded, orderHistory, Event.about]

theorem account_accepted (m : Memory) {o : Order} (new : o.status = .expects) (st : Stamp) :
    (m.recorded (m.orders.put o) .orderAccepted (.courier o.userId) o o.status st).account o.id =
      (m.account o.id).withNew o (m.historyIds + 1 : Nat) st := by
  rw [account_recorded, OrderTable.find?_put, if_pos rfl, new]
  rfl

theorem account_recorded_other {m : Memory} {orders : OrderTable} {t : EventType} {actor : Actor} {o : Order}
    {status : Status} {st : Stamp} {id : Nat} (other : o.id ≠ id) (row : orders.find? id = m.orders.find? id) :
    (m.recorded orders t actor o status st).account id = m.account id := by
  simp [account, recorded, orderHistory, Event.about, other, row]

/-- A change of another order leaves what is told of this one. -/
theorem Changes.account_eq {m m' : Memory} {c : Change} (h : m.Changes c m') {id : Nat} (other : c.orderId ≠ id) :
    m'.account id = m.account id := by
  cases h with
  | @accepted o st free new =>
    have elsewhere : o.id ≠ id := other
    refine account_recorded_other elsewhere ?_
    rw [OrderTable.find?_put, if_neg elsewhere]
  | @processed o o' userId action now id' t st found own due after =>
    have elsewhere : o'.id ≠ id := (Order.after_found found after).trans_ne other
    refine account_recorded_other elsewhere ?_
    rw [OrderTable.find?_put, if_neg elsewhere]
  | @reclaimed o now id' st found free =>
    have elsewhere : id' ≠ id := other
    refine account_recorded_other ((OrderTable.find?_id found).trans_ne elsewhere) ?_
    rw [OrderTable.find?_erase, if_neg elsewhere]

theorem Changed.account_eq {m m' : Memory} {cs : List Change} (h : m.Changed cs m') {id : Nat}
    (others : ∀ c ∈ cs, c.orderId ≠ id) : m'.account id = m.account id := by
  induction h with
  | nil => rfl
  | cons head _ ih =>
    rw [ih fun c hc => others c (List.mem_cons_of_mem _ hc), head.account_eq (others _ List.mem_cons_self)]

end Memory

/-! ## Changes ahead -/

/-- what an import may still do with the records that it has left -/
def Waiting (left : List (Except RejectedRecord Acceptance)) : Change → Prop
  | .accept o => ∃ a, .ok a ∈ left ∧ o.id = a.orderId
  | _ => False

def Origin.Ahead : Origin → Change → Prop
  | .own, _ => False
  | .record _ _ left, c => Waiting left c

/-- a change that the next step or a later one may make -/
def Progress.Ahead : Progress → Change → Prop
  | .checking a origin, c => (∃ o, c = .accept o ∧ o.id = a.orderId) ∨ origin.Ahead c
  | .storing o origin, c => c = .accept o ∨ origin.Ahead c
  | .dropping _ origin, c => origin.Ahead c
  | .importing _ left, c => Waiting left c
  | .reclaiming id, c => ∃ now, c = .reclaim now id
  | .timing userId action ids, c => ∃ now, ∃ id ∈ ids, c = .process userId action now id
  | .processing userId action ids now, c => ∃ id ∈ ids, c = .process userId action now id
  | _, _ => False

/-- a change that the next step may make -/
def Progress.Due (p : Progress) (c : Change) : Prop := p.May c ∧ p.Ahead c

theorem ahead_accepted {o : Order} {origin : Origin} {c : Change} (h : (origin.accepted o).Ahead c) :
    origin.Ahead c := by
  cases origin <;> exact h

theorem ahead_refused {e : Error} {origin : Origin} {c : Change} (h : (origin.refused e).Ahead c) : origin.Ahead c := by
  cases origin <;> exact h

theorem waiting_tail {r : Except RejectedRecord Acceptance} {left : List (Except RejectedRecord Acceptance)}
    {c : Change} (h : Waiting left c) : Waiting (r :: left) c := by
  cases c with
  | accept o =>
    obtain ⟨a, ha, hid⟩ := h
    exact ⟨a, List.mem_cons_of_mem _ ha, hid⟩
  | process | reclaim => exact h

/-- such changes only have been made -/
def Made {κ : Type} (P : Change → Prop) (s : Site Memory κ) (_ : Option Halt) (s' : Site Memory κ) : Prop :=
  ∃ cs, s.store.Changed cs s'.store ∧ ∀ c ∈ cs, P c

section Steps

variable {κ α : Type} {s : Site Memory κ} {P : Change → Prop}

theorem made_of_keeps {s s' : Site Memory κ} {h : Option Halt} (hs : s'.store = s.store) : Made P s h s' :=
  ⟨[], hs ▸ .nil _, fun _ hc => absurd hc List.not_mem_nil⟩

instance : Frame (@Made κ P) where
  comp h₁ h₂ := by
    obtain ⟨cs, h₁, hcs⟩ := h₁
    obtain ⟨ds, h₂, hds⟩ := h₂
    exact ⟨cs ++ ds, h₁.append h₂, fun c hc => (List.mem_append.1 hc).elim (hcs c) (hds c)⟩
  silent h := made_of_keeps h.store
  attempt h := h

theorem Act.Obeys.made {act : Act Memory κ α} {Q : α → Memory → Prop} (h : Obeys Idle act s Q) :
    Obeys (Made P) act s Q :=
  h.weaken fun idle => made_of_keeps idle.store

/-- an act that is undone if it halts -/
theorem made_of_undone {R : Law Memory κ} {act : Act Memory κ α}
    (h : Obeys R act s fun _ m => ∃ cs, s.store.Changed cs m ∧ ∀ c ∈ cs, P c)
    (undone : ∀ {s s' : Site Memory κ} {h : Halt}, R s (some h) s' → s'.store = s.store) :
    Obeys (Made P) act s fun _ _ => True := by
  obtain ⟨law, answer⟩ := h
  refine ⟨?_, fun _ _ => trivial⟩
  rcases hr : act s with ⟨halt | a, s'⟩ <;> rw [hr] at law answer
  · exact made_of_keeps (undone law)
  · exact answer a rfl

theorem storeAccepted_made {o : Order} (new : o.status = .expects) (may : P (.accept o)) :
    Obeys (Made P) (storeAccepted o) s fun _ _ => True :=
  made_of_undone ((storeAccepted_obeys new s).mono fun _ _ h => ⟨_, h.changed, by simpa using may⟩) fun h =>
    (h.halted (Option.some_ne_none _)).store

theorem storeReclaimed_made {id : Nat} (may : ∀ now, P (.reclaim now id)) :
    Obeys (Made P) (storeReclaimed id) s fun _ _ => True := by
  refine made_of_undone ((storeReclaimed_obeys id s).mono fun _ _ h => ?_) fun h =>
    (h.halted (Option.some_ne_none _)).store
  obtain ⟨now, change⟩ := h
  exact ⟨_, change.changed, by simpa using may now⟩

theorem mem_of_mem_doneIds {action : Action} {ids : List Nat} {outcomes : List (Nat × Option EventType)}
    (outcome : Outcome action ids outcomes) {id : Nat} (h : id ∈ doneIds outcomes) : id ∈ ids := by
  obtain ⟨p, hp, rfl⟩ := List.mem_map.1 h
  exact outcome.ids ▸ List.mem_map_of_mem (List.mem_filter.1 hp).1

theorem batch_made {userId : Nat} {action : Action} {now : Instant} {ids : List Nat}
    (may : ∀ id ∈ ids, P (.process userId action now id)) :
    Obeys (Made P) (transaction (ids.mapM (applyInBatch userId action now))) s fun _ _ => True := by
  have work : Obeys (Undone Aside) (transaction (ids.mapM (applyInBatch userId action now))) s fun _ m =>
      ∃ cs, s.store.Changed cs m ∧ ∀ c ∈ cs, P c := by
    refine transaction_obeys fun s' hs => ?_
    refine ((batch_obeys userId action now ids s').weaken (·.toAside)).mono fun outcomes m h => ?_
    refine ⟨_, hs ▸ h.2, fun c hc => ?_⟩
    obtain ⟨id, done, rfl⟩ := List.mem_map.1 hc
    exact may id (mem_of_mem_doneIds h.1 done)
  exact made_of_undone work fun h => h.2 (Option.some_ne_none _)

theorem proceed_ahead {origin : Origin} {act : Act Memory κ α} {next : α → Progress} {Q : α → Memory → Prop}
    {R : Change → Prop} (h : Obeys (Made P) act s Q) (hn : ∀ a m, Q a m → ∀ c, (next a).Ahead c → R c)
    (ho : ∀ c, origin.Ahead c → R c) :
    Obeys (Made P) (origin.proceed act next) s fun p' _ => ∀ c, p'.Ahead c → R c := by
  refine h.attempt.bind fun r s₁ _ hr => ?_
  cases r with
  | ok a => exact Obeys.pure (hn a _ (hr a rfl))
  | error e => exact Obeys.pure fun c hc => ho c (ahead_refused hc)

variable [HistoryCache κ]

theorem advance_ahead {p : Progress} (sound : p.Sound) :
    Obeys (Made p.Due) p.advance s fun p' _ => ∀ c, p'.Ahead c → p.Ahead c := by
  cases p with
  | checking a origin =>
    have checked : Obeys Idle (checkAcceptance a) s _ := (checkAcceptance_obeys a s).weaken Tallied.idle
    refine proceed_ahead checked.made (fun o _ ⟨hid, _⟩ c hc => ?_) fun c hc => .inr hc
    exact hc.imp_left fun hc => ⟨o, hc, hid⟩
  | storing o origin =>
    exact proceed_ahead (storeAccepted_made sound ⟨rfl, .inl rfl⟩) (fun _ _ _ c hc => .inr hc) fun c hc => .inr hc
  | dropping o origin =>
    exact proceed_ahead (dropHistory_idle _).made (fun _ _ _ c hc => ahead_accepted hc) fun c hc => hc
  | importing r left =>
    rcases left with _ | ⟨rejected | a, left⟩
    · exact Obeys.pure fun _ => False.elim
    · exact (noteFailure_idle _).made.bind fun _ _ _ _ => Obeys.pure fun c hc => waiting_tail hc
    · refine Obeys.pure fun c hc => ?_
      rcases hc with ⟨o, rfl, hid⟩ | hc
      · exact ⟨a, List.mem_cons_self, hid⟩
      · exact waiting_tail hc
  | reclaiming id =>
    exact (storeReclaimed_made fun now => ⟨rfl, now, rfl⟩).bind fun _ _ _ _ => Obeys.pure fun _ => False.elim
  | timing userId action ids =>
    exact Obeys.readClock.bind fun now _ _ _ => Obeys.pure fun c hc => ⟨now, hc⟩
  | processing userId action ids now =>
    have worked : Obeys (Made (Progress.Due (.processing userId action ids now))) _ s _ :=
      batch_made fun id hid => ⟨⟨rfl, rfl, rfl⟩, id, hid, rfl⟩
    refine worked.attempt.bind fun r s₁ _ _ => ?_
    cases r with
    | ok outcomes => exact (noteBatch_idle outcomes).made.bind fun _ _ _ _ => Obeys.pure fun _ => False.elim
    | error e => exact (noteFailure_idle e).made.bind fun _ _ _ _ => Obeys.pure fun _ => False.elim
  | clearing ids reply =>
    cases ids with
    | nil => exact Obeys.pure fun _ => False.elim
    | cons id ids => exact (dropHistory_idle id).made.bind fun _ _ _ _ => Obeys.pure fun _ => False.elim
  | recalling id =>
    refine (cachedHistory_idle id).made.bind fun r s₁ _ _ => ?_
    cases r <;> exact Obeys.pure fun _ => False.elim
  | reading id =>
    have read : Obeys Idle (recordedHistory id) s _ := (recordedHistory_tallied id).weaken Tallied.idle
    exact read.made.bind fun _ _ _ _ => Obeys.pure fun _ => False.elim
  | keeping id history => exact (keepHistory_idle id history).made.bind fun _ _ _ _ => Obeys.pure fun _ => False.elim
  | asking c =>
    have asked : Obeys Idle c.perform s _ := (question_tallied sound).weaken Tallied.idle
    exact asked.made.bind fun _ _ _ _ => Obeys.pure fun _ => False.elim
  | ended r => exact Obeys.pure fun _ => False.elim

/-- A step makes changes that are due and were ahead, and brings no others ahead. -/
theorem step_ahead {p : Progress} (sound : p.Sound) (s : Site Memory κ) :
    (∃ cs, s.store.Changed cs (p.step s).2.store ∧ ∀ c ∈ cs, p.Due c) ∧
      ∀ c, (p.step s).1.Ahead c → p.Ahead c := by
  obtain ⟨law, answer⟩ := advance_ahead (s := s) sound
  unfold Progress.step
  rcases hr : p.advance s with ⟨halt | p', s'⟩ <;> rw [hr] at law answer
  · exact ⟨law, fun _ => False.elim⟩
  · exact ⟨law, answer p' rfl⟩

/-- A whole call makes changes that were ahead of it: what is ahead of a later step was ahead of the first one. -/
theorem perform_ahead (c : Call) (s : Site Memory κ) :
    ∃ cs, s.store.Changed cs (c.perform s).2.store ∧ ∀ d ∈ cs, (Progress.start c).Ahead d := by
  have kept := Progress.performs (c := c) (s := s)
    (I := fun p s' => p.Sound ∧ (∀ d, p.Ahead d → (Progress.start c).Ahead d) ∧
      ∃ cs, s.store.Changed cs s'.store ∧ ∀ d ∈ cs, (Progress.start c).Ahead d)
    (fun p s' ⟨sound, ahead, cs, changed, made⟩ => by
      obtain ⟨⟨ds, added, due⟩, fewer⟩ := step_ahead sound s'
      refine ⟨(step_grows sound s').1, fun d hd => ahead d (fewer d hd), cs ++ ds, changed.append added, fun d hd => ?_⟩
      exact (List.mem_append.1 hd).elim (made d) fun hd => ahead d (due d hd).2)
    ⟨sound_start c, fun _ hd => hd, [], .nil _, fun _ hd => absurd hd List.not_mem_nil⟩
  exact kept.2.2

/-! ## Calls that spare an order -/

/-- The call has nothing to do with an order. -/
def Call.Spares (id : Nat) : Call → Prop
  | .accept a => a.orderId ≠ id
  | .reclaim other => other ≠ id
  | .process _ _ ids => id ∉ ids
  | .importAll records => ∀ a, .ok a ∈ records → a.orderId ≠ id
  | _ => True

/-- Nothing is ahead for an order. -/
def Progress.Spares (id : Nat) (p : Progress) : Prop := ∀ c, p.Ahead c → c.orderId ≠ id

theorem spares_start {id : Nat} {c : Call} (h : c.Spares id) : (Progress.start c).Spares id := by
  intro change ahead
  cases c with
  | accept a =>
    rcases ahead with ⟨o, rfl, same⟩ | ahead
    · exact same.trans_ne h
    · exact ahead.elim
  | reclaim other =>
    obtain ⟨now, rfl⟩ := ahead
    exact h
  | process userId action ids =>
    obtain ⟨now, other, mem, rfl⟩ := ahead
    exact fun same => h (same ▸ mem)
  | importAll records =>
    cases change with
    | accept o =>
      obtain ⟨a, mem, same⟩ := ahead
      exact same.trans_ne (h a mem)
    | process | reclaim => exact False.elim ahead
  | list | returns | scroll | history | orderHistory | get => exact False.elim ahead

theorem step_spares {p : Progress} (sound : p.Sound) {id : Nat} (h : p.Spares id) (s : Site Memory κ) :
    (p.step s).1.Spares id ∧ (p.step s).2.store.account id = s.store.account id := by
  obtain ⟨⟨cs, changed, made⟩, ahead⟩ := step_ahead sound s
  exact ⟨fun c hc => h c (ahead c hc), changed.account_eq fun c hc => h c (made c hc).2⟩

end Steps

end PickupPoint
