/-
Batches: each id in a savepoint of its own, all of them in one transaction.

Whatever faults are set, a batch leaves the changes of the ids that it reports as done, in their order, and nothing of
the others (`batch_obeys`). No id is done twice (`nodup_of_changed`), and the same ids are done again wherever the
store differs in times and event ids alone and no faults are set (`batch_smooth`). `batch_isolation` puts it together:
what a batch left is what the ids that were done leave as a batch of their own.
-/
import PickupPoint.Proofs.Faultless
import PickupPoint.Proofs.Steady

namespace PickupPoint

open Act

variable {κ : Type}

/-! ## The ids of a batch -/

/-- One id: it is done, with its event, or nothing of it is left. -/
theorem applyInBatch_obeys (userId : Nat) (action : Action) (now : Instant) (id : Nat) (s : Site Memory κ) :
    Obeys Steady (applyInBatch userId action now id) s fun p m =>
      (p = (id, some action.eventType) ∧ s.store.Changes (.process userId action now id) m) ∨
        (p = (id, none) ∧ m = s.store) := by
  have saved : Obeys Inside (attempt (savepoint (applyAction userId action now id))) s _ :=
    attempt_savepoint_obeys fun s' hs => hs ▸ applyAction_obeys userId action now id s'
  refine (saved.steady (attempt_granted _ s)).bind fun r s₁ _ hr => ?_
  rcases hr with ⟨t, rfl, rfl, hc⟩ | ⟨rfl | ⟨e, rfl⟩, hm⟩
  · exact Obeys.steady_pure (.inl ⟨rfl, hc⟩)
  · exact Obeys.steady_pure (.inr ⟨rfl, hm⟩)
  · exact (Obeys.steady_noteFailure e).bind fun _ s₂ _ h₂ => Obeys.steady_pure (.inr ⟨rfl, h₂.trans hm⟩)

/-- what was done, as changes -/
def doneChanges (userId : Nat) (action : Action) (now : Instant) (ids : List Nat) : List Change :=
  ids.map (.process userId action now)

/-- the outcomes of a batch: its ids in their order, and the event of the action for those that were done -/
structure Outcome (action : Action) (ids : List Nat) (outcomes : List (Nat × Option EventType)) : Prop where
  ids : outcomes.map (·.1) = ids
  events : outcomes.filterMap (·.2) = List.replicate (doneIds outcomes).length action.eventType

theorem batch_obeys (userId : Nat) (action : Action) (now : Instant) (ids : List Nat) (s : Site Memory κ) :
    Obeys Steady (ids.mapM (applyInBatch userId action now)) s fun outcomes m =>
      Outcome action ids outcomes ∧ s.store.Changed (doneChanges userId action now (doneIds outcomes)) m := by
  induction ids generalizing s with
  | nil => exact Obeys.steady_pure ⟨⟨rfl, rfl⟩, .nil _⟩
  | cons id ids ih =>
    rw [List.mapM_cons]
    refine (applyInBatch_obeys userId action now id s).bind fun p s₁ _ hp => ?_
    refine (ih s₁).bind fun outcomes s₂ _ ⟨ho, hc⟩ => Obeys.steady_pure ?_
    rcases hp with ⟨rfl, hid⟩ | ⟨rfl, hm⟩
    · refine ⟨⟨by simp [ho.ids], ?_⟩, .cons hid hc⟩
      simp [doneIds, ho.events, List.replicate_succ]
    · rw [hm] at hc
      exact ⟨⟨by simp [ho.ids], by simp [doneIds, ho.events]⟩, hc⟩

/-! ## No id twice -/

/-- an order that the action leaves as it is, whoever asks -/
def Spent (action : Action) (now : Instant) (id : Nat) (m : Memory) : Prop :=
  ∃ o, m.orders.find? id = some o ∧ ∀ p, o.after action now ≠ .ok p

theorem spent_of_changes {m m' : Memory} {userId : Nat} {action : Action} {now : Instant} {id : Nat}
    (h : m.Changes (.process userId action now id) m') : Spent action now id m' := by
  cases h with
  | @processed o o' _ _ _ _ t st found own due after =>
    refine ⟨o', ?_, Order.after_twice after⟩
    show (m.orders.put o').find? id = some o'
    rw [OrderTable.find?_put, if_pos (Order.after_found found after)]

theorem Spent.keeps {m m' : Memory} {userId : Nat} {action : Action} {now : Instant} {id other : Nat}
    (h : Spent action now id m) (hc : m.Changes (.process userId action now other) m') :
    other ≠ id ∧ Spent action now id m' := by
  obtain ⟨o, ho, hspent⟩ := h
  cases hc with
  | @processed x x' _ _ _ _ t st found own due after =>
    have hid : x'.id = other := Order.after_found found after
    have hne : other ≠ id := by
      rintro rfl
      rw [found] at ho
      cases ho
      exact hspent _ after
    refine ⟨hne, o, ?_, hspent⟩
    show (m.orders.put x').find? id = some o
    rw [OrderTable.find?_put, if_neg (hid ▸ hne), ho]

theorem not_mem_of_spent {userId : Nat} {action : Action} {now : Instant} {id : Nat} {ids : List Nat} {m m' : Memory}
    (h : Spent action now id m) (hc : m.Changed (doneChanges userId action now ids) m') : id ∉ ids := by
  induction ids generalizing m with
  | nil => exact List.not_mem_nil
  | cons other ids ih =>
    cases hc with
    | cons head tail =>
      obtain ⟨hne, hspent⟩ := h.keeps head
      exact List.not_mem_cons_of_ne_of_not_mem hne.symm (ih hspent tail)

/-- An action goes through at most once on each id. -/
theorem nodup_of_changed {userId : Nat} {action : Action} {now : Instant} {ids : List Nat} {m m' : Memory}
    (hc : m.Changed (doneChanges userId action now ids) m') : ids.Nodup := by
  induction ids generalizing m with
  | nil => exact List.nodup_nil
  | cons id ids ih =>
    cases hc with
    | cons head tail => exact List.nodup_cons.2 ⟨not_mem_of_spent (spent_of_changes head) tail, ih tail⟩

/-! ## The same batch without faults -/

theorem applyInBatch_smooth {userId : Nat} {action : Action} {now : Instant} {id : Nat} {m m' : Memory}
    {s : Site Memory κ} (hs : s.faults = []) (hm : m.blurred = s.store.blurred)
    (h : m.Changes (.process userId action now id) m') :
    Obeys Smooth (applyInBatch userId action now id) s fun p n =>
      p = (id, some action.eventType) ∧ m'.blurred = n.blurred := by
  refine (savepoint_smooth hs (applyAction_smooth hs hm h)).smooth_attempt.bind fun r s₁ h₁ hr => ?_
  obtain ⟨_, rfl, _, rfl, rfl, hn⟩ := hr
  exact Obeys.smooth_pure h₁.faultless ⟨rfl, hn⟩

/-- The ids that changes were made of are done again on every store that differs in times and event ids alone. -/
theorem batch_smooth {userId : Nat} {action : Action} {now : Instant} {ids : List Nat} {m m' : Memory}
    {s : Site Memory κ} (hs : s.faults = []) (hm : m.blurred = s.store.blurred)
    (h : m.Changed (doneChanges userId action now ids) m') :
    Obeys Smooth (ids.mapM (applyInBatch userId action now)) s fun outcomes n =>
      outcomes = ids.map (·, some action.eventType) ∧ m'.blurred = n.blurred := by
  induction ids generalizing m s with
  | nil => cases h; exact Obeys.smooth_pure hs ⟨rfl, hm⟩
  | cons id ids ih =>
    cases h with
    | cons head tail =>
      rw [List.mapM_cons]
      refine (applyInBatch_smooth hs hm head).bind fun p s₁ h₁ ⟨hp, hn⟩ => ?_
      refine (ih h₁.faultless hn tail).bind fun outcomes s₂ h₂ ⟨ho, hn₂⟩ => ?_
      exact Obeys.smooth_pure h₂.faultless ⟨by rw [hp, ho]; rfl, hn₂⟩

/-! ## A whole batch -/

/-- the event counters after some events -/
theorem noteBatch_run (outcomes : List (Nat × Option EventType)) (s : Site Memory κ) :
    ∃ m, noteBatch outcomes s = (.ok (), { s with metrics := m }) ∧
      ∀ t, m.events t = s.metrics.events t + (outcomes.filterMap (·.2)).count t := by
  unfold noteBatch
  induction outcomes.filterMap (·.2) generalizing s with
  | nil => exact ⟨s.metrics, rfl, fun _ => rfl⟩
  | cons t ts ih =>
    obtain ⟨m, hr, he⟩ := ih { s with metrics := s.metrics.countEvent t }
    refine ⟨m, ?_, fun u => ?_⟩
    · show (do noteEvent t; ts.forM noteEvent : Act Memory κ Unit) s = _
      rw [bind_run, noteEvent_run]; exact hr
    · rw [he u, List.count_cons]
      simp only [Metrics.countEvent, beq_iff_eq, @eq_comm _ u t]
      split_ifs <;> omega

section Process

variable [HistoryCache κ]

/-- what is left to do once the transaction is through -/
def report (outcomes : List (Nat × Option EventType)) : Act Memory κ BatchResult := do
  noteBatch outcomes
  (doneIds outcomes).forM dropHistory
  return ⟨doneIds outcomes, failedIds outcomes⟩

theorem process_run (userId : Nat) (action : Action) (ids : List Nat) (s : Site Memory κ) :
    process userId action ids s =
      match transaction (ids.mapM (applyInBatch userId action s.clock.current))
          { s with clock := s.clock.advance } with
      | (.ok outcomes, s₁) => report outcomes s₁
      | (.error (.error e), s₁) => (.ok ⟨[], ids⟩, { s₁ with metrics := s₁.metrics.countFailure e.code })
      | (.error (.panic text), s₁) => (.error (.panic text), s₁) := by
  unfold process
  rw [bind_run, readClock_run]
  dsimp only
  rw [bind_run, attempt_run]
  rcases transaction (ids.mapM (applyInBatch userId action s.clock.current)) _ with ⟨(_ | _) | _, s₁⟩ <;> rfl

theorem report_calm (quiet : DropsQuietly κ) (outcomes : List (Nat × Option EventType)) {s : Site Memory κ}
    (calm : Fault.Calm s.faults) :
    ∃ s', report outcomes s = (.ok ⟨doneIds outcomes, failedIds outcomes⟩, s') ∧ s'.store = s.store ∧
      ∀ t, s'.metrics.events t = s.metrics.events t + (outcomes.filterMap (·.2)).count t := by
  obtain ⟨m, hn, hcount⟩ := noteBatch_run outcomes s
  obtain ⟨s₂, hd, asked⟩ := @drops_calm _ _ quiet (doneIds outcomes) { s with metrics := m } calm
  refine ⟨s₂, ?_, asked.store, fun t => by rw [asked.metrics, hcount]⟩
  unfold report
  rw [bind_run, hn]
  dsimp only
  rw [bind_run, hd]
  rfl

theorem doneIds_map (t : EventType) (ids : List Nat) : doneIds (ids.map (·, some t)) = ids := by
  simp [doneIds, List.filter_map, Function.comp_def]

theorem failedIds_map (t : EventType) (ids : List Nat) : failedIds (ids.map (·, some t)) = [] := by
  simp [failedIds]

/-- Where no faults are set, a batch of ids that changes were made of does all of them. -/
theorem process_smooth (quiet : DropsQuietly κ) {userId : Nat} {action : Action} {ids : List Nat} {m m' : Memory}
    {s : Site Memory κ} (hs : s.faults = []) (hm : m.blurred = s.store.blurred)
    (h : m.Changed (doneChanges userId action s.clock.current ids) m') :
    ∃ s', process userId action ids s = (.ok ⟨ids, []⟩, s') ∧ s'.store.blurred = m'.blurred := by
  have worked : Obeys Smooth (ids.mapM (applyInBatch userId action s.clock.current))
      { s with clock := s.clock.advance } _ := batch_smooth hs hm h
  have through : Obeys Smooth (transaction _) { s with clock := s.clock.advance } _ := transaction_smooth hs worked
  obtain ⟨outcomes, s₁, hr, hf, rfl, hn⟩ := through.smooth_run
  obtain ⟨s₂, hr₂, hs₂, -⟩ := report_calm quiet (ids.map (·, some action.eventType))
    (Fault.calm_of_none hf)
  refine ⟨s₂, ?_, by rw [hs₂, hn]⟩
  rw [process_run, hr]
  dsimp only
  rw [hr₂, doneIds_map, failedIds_map]

/-! ## Isolation -/

/-- the elements of a list at the positions that are marked -/
def marked {α : Type} (mask : List Bool) (l : List α) : List α := ((mask.zip l).filter (·.1)).map (·.2)

@[simp]
theorem marked_nil {α : Type} (l : List α) : marked [] l = [] := rfl

@[simp]
theorem marked_cons {α : Type} (b : Bool) (mask : List Bool) (a : α) (l : List α) :
    marked (b :: mask) (a :: l) = if b then a :: marked mask l else marked mask l := by
  cases b <;> rfl

/-- A batch that went through: its ids split by position, and what is left of it is what the ids that were done leave
as a batch of their own. -/
structure Isolated (userId : Nat) (action : Action) (ids : List Nat) (r : BatchResult) (s s' : Site Memory κ) :
    Prop where
  split : ∃ mask : List Bool,
    mask.length = ids.length ∧ r.processed = marked mask ids ∧ r.errors = marked (mask.map (!·)) ids
  once : r.processed.Nodup
  counted : ∀ t, s'.metrics.events t = s.metrics.events t + if t = action.eventType then r.processed.length else 0
  alone : ∀ s₀ : Site Memory κ,
    s₀.store = s.store → s₀.clock.current = s.clock.current → s₀.faults = [] →
      ∃ s₁, process userId action r.processed s₀ = (.ok ⟨r.processed, []⟩, s₁) ∧ s₁.store.blurred = s'.store.blurred

/-- a batch that did not go through -/
structure Abandoned (ids : List Nat) (r : BatchResult) (s s' : Site Memory κ) : Prop where
  reported : r = ⟨[], ids⟩
  store : s'.store = s.store
  events : s'.metrics.events = s.metrics.events

theorem doneIds_marked (outcomes : List (Nat × Option EventType)) :
    doneIds outcomes = marked (outcomes.map (·.2.isSome)) (outcomes.map (·.1)) := by
  simp [doneIds, marked, List.zip_map', List.filter_map, Function.comp_def]

theorem failedIds_marked (outcomes : List (Nat × Option EventType)) :
    failedIds outcomes = marked ((outcomes.map (·.2.isSome)).map (!·)) (outcomes.map (·.1)) := by
  simp [failedIds, marked, List.zip_map', List.filter_map, Function.comp_def]

/-- **Batches are isolated.** For every store, user, action and list of ids, and whatever faults refuse or skip: a
batch answers, it is abandoned if its opening or its commit is refused, and else the ids that failed leave no trace. -/
theorem batch_isolation (quiet : DropsQuietly κ) (userId : Nat) (action : Action) (ids : List Nat)
    (s : Site Memory κ) (calm : Fault.Calm s.faults) :
    ∃ r s', process userId action ids s = (.ok r, s') ∧
      (Stopped s → Abandoned ids r s s') ∧ (¬ Stopped s → Isolated userId action ids r s s') := by
  have work : ∀ s₁ : Site Memory κ, s₁.store = s.store →
      Obeys Steady (ids.mapM (applyInBatch userId action s.clock.current)) s₁ fun outcomes m =>
        Outcome action ids outcomes ∧
          s.store.Changed (doneChanges userId action s.clock.current (doneIds outcomes)) m :=
    fun s₁ hs => hs ▸ batch_obeys userId action s.clock.current ids s₁
  rcases transaction_ends (s := { s with clock := s.clock.advance }) calm work with
    ⟨e, s₁, hr, stopped, left, hs⟩ | ⟨outcomes, s₁, hr, through, left, outcome, changed⟩
  · refine ⟨⟨[], ids⟩, { s₁ with metrics := s₁.metrics.countFailure e.code }, by rw [process_run, hr],
      fun _ => ⟨rfl, hs, left.events⟩, fun h => absurd stopped h⟩
  · obtain ⟨s₂, hr₂, hs₂, hcount⟩ := report_calm quiet outcomes (left.stays_calm calm)
    refine ⟨⟨doneIds outcomes, failedIds outcomes⟩, s₂, by rw [process_run, hr]; exact hr₂,
      fun h => absurd h through, fun _ => ⟨⟨outcomes.map (·.2.isSome), ?_, ?_, ?_⟩, ?_, ?_, ?_⟩⟩
    · rw [← outcome.ids]; simp
    · rw [doneIds_marked, outcome.ids]
    · rw [failedIds_marked, outcome.ids]
    · exact nodup_of_changed changed
    · intro t
      rw [hcount, left.events, outcome.events, List.count_replicate]
      simp only [beq_iff_eq, @eq_comm _ t]
    · intro s₀ hs₀ hnow hf
      rw [hs₂]
      exact process_smooth quiet hf (congrArg Memory.blurred hs₀.symm) (hnow ▸ changed)

end Process

/-- two parcels of client 7 on the shelf, and the first event that is written will be refused -/
def twoParcels : Site Memory TimedCache where
  clock := .ticking ⟨0, 0⟩
  eventIds := 0
  store := (Memory.empty.seed ⟨1, 7, .expects, ⟨60, 0⟩, .box, 1, .ofNat 20⟩).seed
    ⟨2, 7, .expects, ⟨60, 0⟩, .bare, 1, .ofNat 10⟩
  cache := .empty
  cacheTtl := 60
  metrics := .empty
  faults := [⟨.txSaveEvent, false, 1, some 1, .error (.internal "event refused"), 0⟩]

/-- The first try on parcel 1 is undone after its order and history were written, the second one goes through, and the
last id comes too late. -/
theorem batch_isolation_of_two_parcels :
    DropsQuietly TimedCache ∧ Fault.Calm twoParcels.faults ∧ ¬ Stopped twoParcels ∧
      ∃ s', process 7 .issue [1, 2, 1, 2] twoParcels = (.ok ⟨[2, 1], [1, 2]⟩, s') ∧
        Isolated 7 .issue [1, 2, 1, 2] ⟨[2, 1], [1, 2]⟩ twoParcels s' := by
  have calm : Fault.Calm twoParcels.faults := by
    intro text h; simp [twoParcels, Fault.effects] at h
  have through : ¬ Stopped twoParcels := by
    rintro (⟨e, he⟩ | ⟨e, he⟩) <;> cases he
  have answer : (process 7 .issue [1, 2, 1, 2] twoParcels).1 = .ok ⟨[2, 1], [1, 2]⟩ := by decide +kernel
  obtain ⟨r, s', hr, -, isolated⟩ := batch_isolation caches_dropQuietly.1 7 .issue [1, 2, 1, 2] twoParcels calm
  rw [hr] at answer
  cases answer
  exact ⟨caches_dropQuietly.1, calm, through, s', hr, isolated through⟩

end PickupPoint
