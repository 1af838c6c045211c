/-
The counters of events and the outbox.

Counters are raised outside of the transactions that write the events. Still they never part: whatever a call does to
the outbox, it adds events to it and raises the counter of each by one (`InStep`), whatever faults are set and however
the call ends. An event is counted once its transaction is through, and nothing can halt the call in between.
-/
import PickupPoint.Proofs.Calls

namespace PickupPoint

open Act

/-! ## Events that are told -/

/-- the types of the events in the outbox -/
def Memory.told (m : Memory) : List EventType := m.outbox.map (·.eventType)

theorem Memory.count_told (m : Memory) (t : EventType) : m.told.count t = m.outbox.countP (·.eventType = t) := by
  rw [told, List.count, List.countP_map]
  rfl

theorem Memory.Changes.told {m m' : Memory} {c : Change} (h : m.Changes c m') : m'.told = m.told ++ [c.eventType] := by
  obtain ⟨-, event, -, -, outbox, -, -, type⟩ := h.appended
  simp [Memory.told, outbox, type]

theorem Memory.Changed.told {m m' : Memory} {cs : List Change} (h : m.Changed cs m') :
    m'.told = m.told ++ cs.map (·.eventType) := by
  induction h with
  | nil => simp
  | cons head _ ih => simp [ih, head.told]

/-- Of a batch as many events are told as ids were done. -/
theorem told_of_batch {m m' : Memory} {userId : Nat} {action : Action} {now : Instant} {ids : List Nat}
    {outcomes : List (Nat × Option EventType)} (outcome : Outcome action ids outcomes)
    (h : m.Changed (doneChanges userId action now (doneIds outcomes)) m') :
    m'.told = m.told ++ outcomes.filterMap (·.2) := by
  rw [h.told, outcome.events, doneChanges, List.map_map]
  congr 1
  exact List.map_const' ..

/-! ## The law -/

section Law

variable {κ α : Type} {s : Site Memory κ}

/-- events have been added to the outbox, and each of them has been counted -/
def InStep (s : Site Memory κ) (_ : Option Halt) (s' : Site Memory κ) : Prop :=
  ∃ new, s'.store.told = s.store.told ++ new ∧ ∀ t, s'.metrics.events t = s.metrics.events t + new.count t

theorem inStep_of_keeps {s s' : Site Memory κ} {h : Option Halt} (store : s'.store = s.store)
    (events : s'.metrics.events = s.metrics.events) : InStep s h s' :=
  ⟨[], by simp [store], fun t => by simp [events]⟩

instance : Frame (@InStep κ) where
  comp h₁ h₂ := by
    obtain ⟨new, told, counted⟩ := h₁
    obtain ⟨more, told', counted'⟩ := h₂
    refine ⟨new ++ more, by rw [told', told, List.append_assoc], fun t => ?_⟩
    rw [counted', counted, List.count_append, Nat.add_assoc]
  silent h := inStep_of_keeps h.store h.events
  attempt h := h

theorem Tallied.inStep {s s' : Site Memory κ} {h : Option Halt} (ht : Tallied s h s') : InStep s h s' :=
  inStep_of_keeps ht.store ht.events

theorem Asked.inStep {s s' : Site Memory κ} {h : Option Halt} (ha : Asked s h s') : InStep s h s' :=
  inStep_of_keeps ha.store (congrArg Metrics.events ha.metrics)

theorem noteFailure_inStep (e : Error) (s : Site Memory κ) : Obeys InStep (noteFailure e) s fun _ _ => True :=
  ⟨inStep_of_keeps rfl rfl, fun _ _ => trivial⟩

/-- A change of one order tells of one event, which is counted. -/
theorem booked_inStep {act : Act Memory κ Unit} {t : EventType}
    (h : Obeys (Booked t) act s fun _ m => ∃ c, s.store.Changes c m ∧ c.eventType = t) :
    Obeys InStep act s fun _ _ => True := by
  obtain ⟨law, answer⟩ := h
  refine ⟨?_, fun _ _ => trivial⟩
  rcases hr : act s with ⟨halt | a, s'⟩ <;> rw [hr] at law answer
  · exact Tallied.inStep (law.halted (Option.some_ne_none _))
  · obtain ⟨c, change, rfl⟩ := answer a rfl
    refine ⟨[c.eventType], change.told, fun t => ?_⟩
    rw [law.answered rfl, List.count_singleton]
    simp only [Metrics.countEvent, beq_iff_eq, @eq_comm _ t]
    split_ifs <;> rfl

end Law

/-! ## Calls -/

section Calls

variable {κ : Type} [HistoryCache κ] {s : Site Memory κ}

theorem accept_inStep (a : Acceptance) : Obeys InStep (accept a) s fun _ _ => True := by
  have checked : Obeys InStep (checkAcceptance a) s _ := (checkAcceptance_obeys a s).weaken Tallied.inStep
  refine checked.bind fun o s₁ _ ⟨_, new⟩ => ?_
  have stored : Obeys InStep (storeAccepted o) s₁ _ :=
    booked_inStep ((storeAccepted_obeys new s₁).mono fun _ _ h => ⟨_, h, rfl⟩)
  refine stored.bind fun _ s₂ _ _ => ?_
  have dropped : Obeys InStep (dropHistory o.id) s₂ _ := (dropHistory_obeys o.id s₂).weaken Asked.inStep
  exact dropped.bind fun _ _ _ _ => Obeys.pure trivial

theorem reclaim_inStep (id : Nat) : Obeys InStep (reclaim id) s fun _ _ => True := by
  have stored : Obeys InStep (storeReclaimed id) s _ :=
    booked_inStep ((storeReclaimed_obeys id s).mono fun _ _ ⟨_, h⟩ => ⟨_, h, rfl⟩)
  refine stored.bind fun _ s₁ _ _ => ?_
  have dropped : Obeys InStep (dropHistory id) s₁ _ := (dropHistory_obeys id s₁).weaken Asked.inStep
  exact dropped.bind fun _ _ _ _ => Obeys.pure trivial

/-- What a batch has done is counted once its transaction is through; of one that is undone nothing is. -/
theorem process_inStep (userId : Nat) (action : Action) (ids : List Nat) :
    Obeys InStep (process userId action ids) s fun _ _ => True := by
  refine Obeys.readClock.bind fun now s₁ _ _ => ?_
  have worked : Obeys (Undone Aside) (transaction (ids.mapM (applyInBatch userId action now))) s₁ _ :=
    transaction_obeys fun s' hs => ((batch_obeys userId action now ids s').weaken (·.toAside)).mono
      fun _ _ h => (⟨h.1, hs ▸ h.2⟩ : _ ∧ s₁.store.Changed _ _)
  obtain ⟨⟨aside, undone⟩, answer⟩ := worked
  refine ⟨?_, fun _ _ => trivial⟩
  rw [bind_run, attempt_run]
  rcases hr : transaction (ids.mapM (applyInBatch userId action now)) s₁ with ⟨(e | text) | outcomes, s₂⟩ <;>
    rw [hr] at aside undone answer
  · exact inStep_of_keeps (undone (Option.some_ne_none _)) aside.events
  · exact inStep_of_keeps (undone (Option.some_ne_none _)) aside.events
  · obtain ⟨outcome, changed⟩ := answer outcomes rfl
    obtain ⟨m, noted, counted⟩ := noteBatch_run outcomes s₂
    have told : InStep s₁ none { s₂ with metrics := m } :=
      ⟨_, told_of_batch outcome changed, fun t => by rw [counted, aside.events]⟩
    have dropped : Obeys InStep ((doneIds outcomes).forM dropHistory) { s₂ with metrics := m } _ :=
      (drops_obeys _ _).weaken Asked.inStep
    have rest : Obeys InStep (do
        (doneIds outcomes).forM dropHistory
        return ⟨doneIds outcomes, failedIds outcomes⟩ : Act Memory κ BatchResult) { s₂ with metrics := m }
          fun _ _ => True :=
      dropped.bind fun _ _ _ _ => Obeys.pure trivial
    dsimp only
    rw [bind_run, noted]
    exact Composes.comp told rest.law

theorem orderHistory_inStep (id : Nat) : Obeys InStep (orderHistory id) s fun _ _ => True := by
  have recalled : Obeys InStep (cachedHistory id) s _ := (cachedHistory_obeys id s).weaken Asked.inStep
  refine recalled.bind fun r s₁ _ _ => ?_
  cases r with
  | some history => exact Obeys.pure trivial
  | none =>
    have read : Obeys InStep (recordedHistory id) s₁ _ := (recordedHistory_tallied id).weaken Tallied.inStep
    refine read.bind fun history s₂ _ _ => ?_
    have kept : Obeys InStep (keepHistory id history) s₂ _ := (keepHistory_obeys id history s₂).weaken Asked.inStep
    exact kept.bind fun _ _ _ _ => Obeys.pure trivial

theorem perform_inStep (c : Call) (s : Site Memory κ) : Obeys InStep c.perform s fun _ _ => True := by
  have asked : ∀ {c : Call}, c.IsQuestion → Obeys InStep c.perform s fun _ _ => True :=
    fun hc => (question_tallied hc).weaken Tallied.inStep
  cases c with
  | accept a => exact (accept_inStep a).bind fun _ _ _ _ => Obeys.pure trivial
  | reclaim id => exact (reclaim_inStep id).bind fun _ _ _ _ => Obeys.pure trivial
  | process userId action ids => exact (process_inStep userId action ids).bind fun _ _ _ _ => Obeys.pure trivial
  | importAll records =>
    have imported : Obeys InStep (importAll records) s _ :=
      imports_obey noteFailure_inStep (fun a _ _ => accept_inStep a) .none
    exact imported.bind fun _ _ _ _ => Obeys.pure trivial
  | orderHistory id => exact (orderHistory_inStep id).bind fun _ _ _ _ => Obeys.pure trivial
  | list | returns | scroll | history | get => exact asked trivial

theorem run_inStep (calls : List Call) (s : Site Memory κ) : InStep s none (Call.run s calls) := by
  induction calls generalizing s with
  | nil => exact inStep_of_keeps rfl rfl
  | cons c calls ih => exact Composes.comp (perform_inStep c s).law (ih (c.step s))

/-- **Counters count what is told.** After every session on an empty store whose counters began at zero, whatever faults
refuse, skip or make panic and wherever they do, there are as many events of each type in the outbox as its counter
says. No call on any store makes the two part. -/
theorem counters_tell_outbox (s : Site Memory κ) :
    (∀ c : Call, InStep s none (c.step s)) ∧
      ∀ (calls : List Call) (t : EventType),
        let left : Site Memory κ := Call.run { s with store := .empty, metrics := .empty } calls
        left.metrics.events t = left.store.outbox.countP (·.eventType = t) := by
  refine ⟨fun c => (perform_inStep c s).law, ?_⟩
  intro calls t left
  obtain ⟨new, told, counted⟩ := run_inStep calls { s with store := .empty, metrics := .empty }
  calc left.metrics.events t = Metrics.empty.events t + new.count t := counted t
    _ = left.store.told.count t := by rw [told]; simp [Metrics.empty, Memory.told, Memory.empty]
    _ = left.store.outbox.countP (·.eventType = t) := left.store.count_told t

end Calls

end PickupPoint
