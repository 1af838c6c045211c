/-
What calls that take turns leave in a store in memory: changes of single orders, one after the other, and nothing
else.

`advance_obeys` says what one step of a call obeys, whatever faults are set and however the step ends: any law that is
`Lasting`, that the changes of the store keep and all that leaves the store alone. That the store goes through changes
is such a law (`Grows`). What every change keeps holds of every store that a pool comes to (`Pool.run_keeps`).
-/
import PickupPoint.Proofs.Batch
import PickupPoint.Proofs.Interleaving

namespace PickupPoint

open Act

namespace Act

variable {σ κ α β : Type} {act : Act σ κ α} {s : Site σ κ} {P : α → σ → Prop}

/-! ## Acts that only look -/

theorem Obeys.weaken {R R' : Law σ κ} (h : Obeys R act s P)
    (hR : ∀ {s s' : Site σ κ} {h : Option Halt}, R s h s' → R' s h s') : Obeys R' act s P :=
  ⟨hR h.law, h.answer⟩

/-- nothing is written, but the cache may have been asked -/
structure Idle (s : Site σ κ) (_ : Option Halt) (s' : Site σ κ) : Prop where
  readings : s'.clock.readings = s.clock.readings
  taken : s.clock.taken ≤ s'.clock.taken
  cacheTtl : s'.cacheTtl = s.cacheTtl
  effects : Fault.effects s'.faults = Fault.effects s.faults
  store : s'.store = s.store

instance : Frame (@Idle σ κ) where
  comp h₁ h₂ := ⟨h₂.readings.trans h₁.readings, Nat.le_trans h₁.taken h₂.taken, h₂.cacheTtl.trans h₁.cacheTtl,
    h₂.effects.trans h₁.effects, h₂.store.trans h₁.store⟩
  silent h := ⟨h.readings, h.taken, h.cacheTtl, h.effects, h.store⟩
  attempt h := { h with }

theorem Tallied.idle {s s' : Site σ κ} {h : Option Halt} (ht : Tallied s h s') : Idle s h s' :=
  ⟨ht.readings, ht.taken, ht.cacheTtl, ht.effects, ht.store⟩

theorem Asked.idle {s s' : Site σ κ} {h : Option Halt} (ha : Asked s h s') : Idle s h s' :=
  ⟨ha.readings, ha.taken, ha.cacheTtl, ha.effects, ha.store⟩

theorem Obeys.tallied_pure {a : α} (h : P a s.store) : Obeys Tallied (Pure.pure a : Act σ κ α) s P :=
  (Obeys.pure h).tallied nofun

end Act

variable {κ : Type} {s : Site Memory κ}

theorem getOrder_shows (id : Nat) : Obeys Tallied (getOrder id) s fun o _ => s.store.orders.find? id = some o := by
  have read : Obeys Silent (storedOrder id) s fun o _ => s.store.orders.find? id = some o :=
    (storedOrder_obeys id s).mono fun _ _ found => found.2
  exact read.tallied_counted

theorem storedOrders_shows : Obeys Tallied (counted storedOrders) s fun orders _ => orders = s.store.orders.rows := by
  have read : Obeys Silent storedOrders s fun orders _ => orders = s.store.orders.rows := by
    apply Obeys.read (by decide) (fun _ => rfl)
    intro _ orders h
    cases h; rfl
  exact read.tallied_counted

theorem mem_of_mem_pageOf {o : Order} {orders : List Order} {page limit : Nat} (h : o ∈ pageOf orders page limit) :
    o ∈ orders :=
  List.mem_of_mem_drop (List.mem_of_mem_take h)

theorem mem_of_mem_lastOf {o : Order} {orders : List Order} {n : Nat} (h : o ∈ lastOf orders n) : o ∈ orders := by
  unfold lastOf at h
  split_ifs at h
  · exact h
  · exact List.mem_of_mem_drop h

theorem mem_of_mem_scrollFrom {o : Order} {orders : List Order} {cursor limit : Nat}
    (h : o ∈ (scrollFrom (·.id) orders cursor limit).1) : o ∈ orders := by
  dsimp only [scrollFrom] at h
  split_ifs at h
  · exact List.mem_of_mem_take h
  · exact List.dropWhile_subset _ (List.mem_of_mem_take h)

theorem listOrders_shows (userId : Nat) (inPickupPoint : Bool) (last page limit : Nat) :
    Obeys Tallied (listOrders userId inPickupPoint last page limit) s fun p _ => ∀ o ∈ p.1, o ∈ s.store.orders.rows := by
  unfold listOrders
  split_ifs
  · rw [fail_bind]; exact Obeys.tallied_fail _
  · refine storedOrders_shows.bind fun orders s₁ _ same => Obeys.tallied_pure fun o mem => ?_
    rw [← same]
    exact (List.mem_filter.1 (mem_of_mem_lastOf (mem_of_mem_pageOf mem))).1

theorem listReturns_shows (page limit : Nat) :
    Obeys Tallied (listReturns page limit) s fun orders _ => ∀ o ∈ orders, o ∈ s.store.orders.rows := by
  refine storedOrders_shows.bind fun orders s₁ _ same => Obeys.tallied_pure fun o mem => ?_
  rw [← same]
  split_ifs at mem
  · exact (List.mem_filter.1 mem).1
  · exact (List.mem_filter.1 (mem_of_mem_pageOf mem)).1

theorem scrollOrders_shows (userId cursor limit : Nat) :
    Obeys Tallied (scrollOrders userId cursor limit) s fun p _ => ∀ o ∈ p.1, o ∈ s.store.orders.rows := by
  refine storedOrders_shows.bind fun orders s₁ _ same => Obeys.tallied_pure fun o mem => ?_
  rw [← same]
  exact (List.mem_filter.1 (List.mem_mergeSort.1 (mem_of_mem_scrollFrom mem))).1

theorem historyPage_tallied (page count : Nat) : Obeys Tallied (historyPage page count) s fun _ _ => True := by
  have read : Obeys Silent (storedHistory page count) s fun _ _ => True :=
    Obeys.read (by decide) (fun _ => rfl) fun _ _ _ => trivial
  exact read.tallied_counted

/-- The history in the store is answered as it is, and only if there is one. -/
theorem recordedHistory_tallied (id : Nat) :
    Obeys Tallied (recordedHistory id) s fun h m => h = s.store.orderHistory id ∧ h ≠ [] ∧ m = s.store := by
  have read : Obeys Silent (storedOrderHistory id) s fun h m => h = s.store.orderHistory id ∧ m = s.store := by
    refine Obeys.read (by decide) (fun _ => rfl) fun _ h hh => ⟨?_, rfl⟩
    cases hh; rfl
  refine read.tallied_counted.bind fun h s₁ _ ⟨hh, hs⟩ => ?_
  split_ifs with hempty
  · rw [fail_bind]; exact Obeys.tallied_fail _
  · exact Obeys.tallied_pure ⟨hh, fun hnil => hempty (hnil ▸ rfl), hs⟩

section Cache

variable [HistoryCache κ]

theorem cachedHistory_idle (id : Nat) : Obeys Idle (cachedHistory id) s fun _ _ => True :=
  ((cachedHistory_obeys id s).weaken Asked.idle).mono fun _ _ _ => trivial

theorem keepHistory_idle (id : Nat) (history : List HistoryEntry) :
    Obeys Idle (keepHistory id history) s fun _ _ => True :=
  ((keepHistory_obeys id history s).weaken Asked.idle).mono fun _ _ _ => trivial

theorem dropHistory_idle (id : Nat) : Obeys Idle (dropHistory id) s fun _ _ => True :=
  ((dropHistory_obeys id s).weaken Asked.idle).mono fun _ _ _ => trivial

/-- a question, which has a single step -/
def Call.IsQuestion : Call → Prop
  | .list .. | .returns .. | .scroll .. | .history .. | .get .. => True
  | .accept .. | .reclaim .. | .process .. | .importAll .. | .orderHistory .. => False

theorem question_tallied {c : Call} (hc : c.IsQuestion) : Obeys Tallied c.perform s fun _ _ => True := by
  cases c with
  | list => exact (listOrders_shows ..).bind fun _ _ _ _ => Obeys.tallied_pure trivial
  | returns => exact (listReturns_shows ..).bind fun _ _ _ _ => Obeys.tallied_pure trivial
  | scroll => exact (scrollOrders_shows ..).bind fun _ _ _ _ => Obeys.tallied_pure trivial
  | history => exact (historyPage_tallied ..).bind fun _ _ _ _ => Obeys.tallied_pure trivial
  | get => exact (getOrder_shows ..).bind fun _ _ _ _ => Obeys.tallied_pure trivial
  | accept | reclaim | process | importAll | orderHistory => cases hc

end Cache

/-! ## Acts that change orders -/

theorem noteBatch_idle (outcomes : List (Nat × Option EventType)) :
    Obeys Idle (noteBatch outcomes) s fun _ _ => True := by
  obtain ⟨m, hr, -⟩ := noteBatch_run outcomes s
  constructor <;> rw [hr]
  · exact ⟨rfl, Nat.le_refl _, rfl, rfl, rfl⟩
  · exact fun _ _ => trivial

theorem noteFailure_idle (e : Error) : Obeys Idle (noteFailure e) s fun _ _ => True :=
  ⟨⟨rfl, Nat.le_refl _, rfl, rfl, rfl⟩, fun _ _ => trivial⟩

/-- An import obeys what acceptances obey, and the count of what was rejected. -/
theorem imports_obey {R : Law Memory κ} [Frame R] [HistoryCache κ]
    (noted : ∀ (e : Error) (s : Site Memory κ), Obeys R (noteFailure e) s fun _ _ => True)
    {records : List (Except RejectedRecord Acceptance)}
    (each : ∀ a, .ok a ∈ records → ∀ s : Site Memory κ, Obeys R (accept a) s fun _ _ => True) (r : ImportResult) :
    Obeys R (records.foldlM importRecord r) s fun _ _ => True := by
  induction records generalizing r s with
  | nil => exact Obeys.pure trivial
  | cons record records ih =>
    have rest : ∀ (r : ImportResult) (s : Site Memory κ), Obeys R (records.foldlM importRecord r) s fun _ _ => True :=
      fun r _ => ih (fun a ha => each a (List.mem_cons_of_mem _ ha)) r
    rw [List.foldlM_cons]
    cases record with
    | error rejected =>
      simp only [importRecord, bind_assoc, pure_bind]
      exact (noted rejected.cause s).bind fun _ s₁ _ _ => rest _ s₁
    | ok a =>
      simp only [importRecord, bind_assoc]
      refine (each a List.mem_cons_self s).attempt.bind fun result s₁ _ _ => ?_
      cases result <;> simp only [pure_bind] <;> exact rest _ s₁

/-- a law that every step of a call keeps: what changes orders does, and what leaves the store alone -/
class Lasting (R : Law Memory κ) : Prop extends Frame R where
  idle {s s' : Site Memory κ} {h : Option Halt} : Idle s h s' → R s h s'
  accepted {o : Order} (new : o.status = .expects) (s : Site Memory κ) : Obeys R (storeAccepted o) s fun _ _ => True
  reclaimed (id : Nat) (s : Site Memory κ) : Obeys R (storeReclaimed id) s fun _ _ => True
  processed (userId : Nat) (action : Action) (now : Instant) (ids : List Nat) (s : Site Memory κ) :
    Obeys R (transaction (ids.mapM (applyInBatch userId action now))) s fun _ _ => True

theorem Act.Obeys.lasting {R : Law Memory κ} [Lasting R] {α : Type} {act : Act Memory κ α} {P : α → Memory → Prop}
    (h : Obeys Idle act s P) : Obeys R act s P :=
  h.weaken Lasting.idle

/-- the store has gone through changes, or is as it was -/
def Grows (s : Site Memory κ) (_ : Option Halt) (s' : Site Memory κ) : Prop := ∃ cs, s.store.Changed cs s'.store

theorem grows_of_keeps {s s' : Site Memory κ} {h : Option Halt} (hs : s'.store = s.store) : Grows s h s' :=
  ⟨[], hs ▸ .nil _⟩

/-- an act that is undone if it halts -/
theorem grows_of_undone {α : Type} {R : Law Memory κ} {act : Act Memory κ α}
    (h : Obeys R act s fun _ m => ∃ cs, s.store.Changed cs m)
    (undone : ∀ {s s' : Site Memory κ} {h : Halt}, R s (some h) s' → s'.store = s.store) :
    Obeys Grows act s fun _ _ => True := by
  obtain ⟨law, answer⟩ := h
  refine ⟨?_, fun _ _ => trivial⟩
  rcases hr : act s with ⟨halt | a, s'⟩ <;> rw [hr] at law answer
  · exact grows_of_keeps (undone law)
  · exact answer a rfl

instance : Lasting (@Grows κ) where
  comp h₁ h₂ := by
    obtain ⟨cs, h₁⟩ := h₁
    obtain ⟨ds, h₂⟩ := h₂
    exact ⟨cs ++ ds, h₁.append h₂⟩
  silent h := grows_of_keeps h.store
  attempt h := h
  idle h := grows_of_keeps h.store
  accepted new s :=
    grows_of_undone ((storeAccepted_obeys new s).mono fun _ _ h => ⟨_, h.changed⟩) fun h => (h.halted nofun).store
  reclaimed id s :=
    grows_of_undone ((storeReclaimed_obeys id s).mono fun _ _ ⟨_, h⟩ => ⟨_, h.changed⟩) fun h =>
      (h.halted nofun).store
  processed userId action now ids s := by
    have work : Obeys (Undone Aside) (transaction (ids.mapM (applyInBatch userId action now))) s fun _ m =>
        ∃ cs, s.store.Changed cs m :=
      transaction_obeys fun s' hs =>
        ((batch_obeys userId action now ids s').weaken (·.toAside)).mono fun _ _ h => ⟨_, hs ▸ h.2⟩
    exact grows_of_undone work fun h => h.2 nofun

/-! ## Steps -/

/-- what is pending is what a check let pass -/
def Progress.Sound : Progress → Prop
  | .storing o _ => o.status = .expects
  | .asking c => c.IsQuestion
  | _ => True

theorem sound_start (c : Call) : (Progress.start c).Sound := by
  cases c <;> trivial

theorem sound_accepted (o : Order) (origin : Origin) : (origin.accepted o).Sound := by
  cases origin <;> trivial

theorem sound_refused (e : Error) (origin : Origin) : (origin.refused e).Sound := by
  cases origin <;> trivial

section Steps

variable {R : Law Memory κ} [Lasting R]

theorem proceed_obeys {α : Type} {origin : Origin} {act : Act Memory κ α} {next : α → Progress}
    {P : α → Memory → Prop} (h : Obeys R act s P) (hn : ∀ a m, P a m → (next a).Sound) :
    Obeys R (origin.proceed act next) s fun p _ => p.Sound := by
  refine h.attempt.bind fun r s₁ _ hr => ?_
  cases r with
  | ok a => exact Obeys.pure (hn a _ (hr a rfl))
  | error e => exact Obeys.pure (sound_refused e origin)

variable [HistoryCache κ]

/-- One step of a call obeys every lasting law, and leaves the call sound. -/
theorem advance_obeys {p : Progress} (hp : p.Sound) : Obeys R p.advance s fun p' _ => p'.Sound := by
  cases p with
  | checking a origin =>
    have checked : Obeys Idle (checkAcceptance a) s _ := (checkAcceptance_obeys a s).weaken Tallied.idle
    exact proceed_obeys checked.lasting fun _ _ h => h.2
  | storing o origin => exact proceed_obeys (Lasting.accepted hp s) fun _ _ _ => trivial
  | dropping o origin => exact proceed_obeys (dropHistory_idle _).lasting fun _ _ _ => sound_accepted o origin
  | importing r left =>
    rcases left with _ | ⟨rejected | a, left⟩
    · exact Obeys.pure trivial
    · exact (noteFailure_idle _).lasting.bind fun _ _ _ _ => Obeys.pure trivial
    · exact Obeys.pure trivial
  | reclaiming id => exact (Lasting.reclaimed id s).bind fun _ _ _ _ => Obeys.pure trivial
  | timing userId action ids => exact Obeys.readClock.bind fun _ _ _ _ => Obeys.pure trivial
  | processing userId action ids now =>
    refine (Lasting.processed userId action now ids s).attempt.bind fun r s₁ _ _ => ?_
    cases r with
    | ok outcomes => exact (noteBatch_idle outcomes).lasting.bind fun _ _ _ _ => Obeys.pure trivial
    | error e => exact (noteFailure_idle e).lasting.bind fun _ _ _ _ => Obeys.pure trivial
  | clearing ids reply =>
    cases ids with
    | nil => exact Obeys.pure trivial
    | cons id ids => exact (dropHistory_idle id).lasting.bind fun _ _ _ _ => Obeys.pure trivial
  | recalling id =>
    refine (cachedHistory_idle id).lasting.bind fun r s₁ _ _ => ?_
    cases r <;> exact Obeys.pure trivial
  | reading id =>
    have read : Obeys Idle (recordedHistory id) s _ := (recordedHistory_tallied id).weaken Tallied.idle
    exact read.lasting.bind fun _ _ _ _ => Obeys.pure trivial
  | keeping id history => exact (keepHistory_idle id history).lasting.bind fun _ _ _ _ => Obeys.pure trivial
  | asking c =>
    have asked : Obeys Idle c.perform s _ := (question_tallied hp).weaken Tallied.idle
    exact asked.lasting.bind fun _ _ _ _ => Obeys.pure trivial
  | ended r => exact Obeys.pure trivial

variable (R) in
theorem step_obeys {p : Progress} (hp : p.Sound) (s : Site Memory κ) :
    (p.step s).1.Sound ∧ ∃ h, R s h (p.step s).2 := by
  obtain ⟨law, answer⟩ : Obeys R p.advance s fun p' _ => p'.Sound := advance_obeys hp
  unfold Progress.step
  rcases hr : p.advance s with ⟨halt | p', s'⟩ <;> rw [hr] at law answer
  · exact ⟨trivial, _, law⟩
  · exact ⟨answer p' rfl, _, law⟩

theorem step_grows {p : Progress} (hp : p.Sound) (s : Site Memory κ) :
    (p.step s).1.Sound ∧ ∃ cs, s.store.Changed cs (p.step s).2.store := by
  obtain ⟨sound, _, grows⟩ := step_obeys Grows hp s
  exact ⟨sound, grows⟩

/-! ## Runs -/

namespace Pool

/-- a pool before any call, on an empty store -/
def opened (s : Site Memory κ) : Pool Memory κ := ⟨{ s with store := .empty }, []⟩

def Sound (p : Pool Memory κ) : Prop := ∀ q ∈ p.calls, q.Sound

theorem step_sound {p : Pool Memory κ} (hp : p.Sound) (move : Move Memory κ) :
    (p.step move).Sound ∧ ∃ cs, p.site.store.Changed cs (p.step move).site.store := by
  cases move with
  | enter c =>
    refine ⟨fun q hq => ?_, [], .nil _⟩
    rcases List.mem_append.1 hq with hq | hq
    · exact hp q hq
    · rw [List.mem_singleton.1 hq]; exact sound_start c
  | shift s => exact ⟨hp, [], .nil _⟩
  | step i =>
    rcases hi : p.calls[i]? with _ | q <;> simp only [step, hi]
    · exact ⟨hp, [], .nil _⟩
    · obtain ⟨sound, grows⟩ := step_grows (hp q (List.mem_of_getElem? hi)) p.site
      refine ⟨fun q' hq' => ?_, grows⟩
      rcases List.mem_or_eq_of_mem_set hq' with hq' | rfl
      · exact hp q' hq'
      · exact sound

/-- What every change keeps, and an empty store has, holds of every store that a pool comes to. -/
theorem run_keeps {P : Memory → Prop} (hP : ∀ {m c m'}, P m → m.Changes c m' → P m') {p : Pool Memory κ}
    (hp : p.Sound) (h : P p.site.store) (moves : List (Move Memory κ)) : P (p.run moves).site.store := by
  induction moves generalizing p with
  | nil => exact h
  | cons move moves ih =>
    obtain ⟨sound, cs, changed⟩ := step_sound hp move
    exact ih sound (changed.keeps hP h)

theorem opened_keeps {P : Memory → Prop} (hP : ∀ {m c m'}, P m → m.Changes c m' → P m') (h : P .empty)
    (s : Site Memory κ) (moves : List (Move Memory κ)) : P ((opened s).run moves).site.store :=
  run_keeps hP (p := opened s) (fun _ hq => absurd hq List.not_mem_nil) h moves

/-- So it holds of every store that a session comes to. -/
theorem session_keeps {P : Memory → Prop} (hP : ∀ {m c m'}, P m → m.Changes c m' → P m') (h : P .empty)
    (s : Site Memory κ) (calls : List Call) : P (Call.run { s with store := .empty } calls).store := by
  obtain ⟨moves, hmoves⟩ := session_is_run (opened s) calls
  have kept := opened_keeps hP h s moves
  rw [hmoves] at kept
  exact kept

end Pool

end Steps

end PickupPoint
