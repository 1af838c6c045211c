/-
What one step of a call does to the store and to the cache.

A step that works changes orders and leaves the cache alone, and its call has the histories of these orders still to
drop (`working_step`). A step that drops a history leaves the store alone (`dropping_step`). A call that reads a history
asks the cache, then the store, and then sets the cache, a step each (`cachedHistory_run`, `recordedHistory_run`,
`keepHistory_run`). All of it holds whatever faults are set; where none are and the cache serves, nothing is left out
(`Fair`).
-/
import PickupPoint.Proofs.Caches
import PickupPoint.Proofs.Dates

namespace PickupPoint

open Act LawfulCache

variable {κ α : Type}

namespace Progress

/-- the histories that are still to be dropped -/
def drops : Progress → List Nat
  | .dropping o _ => [o.id]
  | .clearing ids _ => ids
  | _ => []

/-- the order whose history is being read -/
def reads? : Progress → Option Nat
  | .recalling id | .reading id | .keeping id _ => some id
  | _ => none

/-- no acceptance is pending -/
def Still : Progress → Prop
  | .checking .. | .storing .. | .dropping .. | .importing .. => False
  | _ => True

/-- a change that the next step may make -/
def May : Progress → Change → Prop
  | .storing o _, .accept o' => o' = o
  | .reclaiming id, .reclaim _ id' => id' = id
  | .processing userId action _ now, .process userId' action' now' _ => userId' = userId ∧ action' = action ∧ now' = now
  | _, _ => False

@[simp]
theorem reads?_accepted (o : Order) (origin : Origin) : (origin.accepted o).reads? = none := by cases origin <;> rfl

@[simp]
theorem reads?_refused (e : Error) (origin : Origin) : (origin.refused e).reads? = none := by cases origin <;> rfl

@[simp]
theorem drops_accepted (o : Order) (origin : Origin) : (origin.accepted o).drops = [] := by cases origin <;> rfl

end Progress

theorem proceed_run {origin : Origin} {act : Act Memory κ α} {next : α → Progress} (s : Site Memory κ) :
    origin.proceed act next s = match act s with
      | (.ok a, s') => (.ok (next a), s')
      | (.error (.error e), s') => (.ok (origin.refused e), s')
      | (.error (.panic text), s') => (.error (.panic text), s') := by
  unfold Origin.proceed
  rw [bind_run, attempt_run]
  rcases act s with ⟨(_ | _) | _, s'⟩ <;> rfl

/-! ## The history that is stored -/

theorem storedOrderHistory_run (id : Nat) (s : Site Memory κ) :
    ∃ fs r, storedOrderHistory id s = (r, { s with faults := fs }) ∧
      (r = .ok (s.store.orderHistory id) ∨ ∃ halt, r = .error halt) ∧
      (s.faults = [] → fs = [] ∧ r = .ok (s.store.orderHistory id)) := by
  unfold storedOrderHistory reachedAt
  rw [bind_run, arrive_run]
  rcases hb : metBy (Fault.arrive .getOrderHistory false s.faults).1 with halt | _
  · exact ⟨_, _, rfl, .inr ⟨halt, rfl⟩, fun hs => by rw [hs] at hb; cases hb⟩
  dsimp only
  rw [bind_run, onStore_run]
  show ∃ fs r, (do let _ ← arrive .getOrderHistory true; pure (s.store.orderHistory id) : Act Memory κ _)
    { s with faults := (Fault.arrive .getOrderHistory false s.faults).2 } = (r, { s with faults := fs }) ∧ _
  rw [bind_run, arrive_run]
  rcases ha : metBy (Fault.arrive .getOrderHistory true (Fault.arrive .getOrderHistory false s.faults).2).1 with
    halt | _
  · exact ⟨_, _, rfl, .inr ⟨halt, rfl⟩, fun hs => by rw [hs] at ha; cases ha⟩
  · exact ⟨_, _, rfl, .inl rfl, fun hs => ⟨by rw [hs]; rfl, rfl⟩⟩

/-- The history of an order as it is stored. An order without one is not known. -/
def known (history : List HistoryEntry) : Except Halt (List HistoryEntry) :=
  if history = [] then .error (.error .orderNotFound) else .ok history

theorem recordedHistory_run (id : Nat) (s : Site Memory κ) :
    ∃ fs m r, recordedHistory id s = (r, { s with faults := fs, metrics := m }) ∧
      (r = known (s.store.orderHistory id) ∨ ∃ halt, r = .error halt) ∧
      (s.faults = [] → fs = [] ∧ r = known (s.store.orderHistory id)) := by
  obtain ⟨fs, r, hr, read, sure⟩ := storedOrderHistory_run id s
  unfold recordedHistory
  rw [bind_run, counted_run, hr]
  rcases r with (e | text) | history
  · exact ⟨fs, _, _, rfl, .inr ⟨_, rfl⟩, fun hs => nomatch (sure hs).2⟩
  · exact ⟨fs, _, _, rfl, .inr ⟨_, rfl⟩, fun hs => nomatch (sure hs).2⟩
  · obtain rfl : history = s.store.orderHistory id := by
      rcases read with h | ⟨_, h⟩ <;> cases h
      rfl
    rcases s.store.orderHistory id with _ | ⟨e, rest⟩
    · exact ⟨fs, _, _, rfl, .inl rfl, fun hs => ⟨(sure hs).1, rfl⟩⟩
    · exact ⟨fs, s.metrics, _, rfl, .inl rfl, fun hs => ⟨(sure hs).1, rfl⟩⟩

/-! ## Changes -/

/-- the cache has not been asked -/
structure KeepsCache (s : Site Memory κ) (h : Option Halt) (s' : Site Memory κ) : Prop where
  cache : s'.cache = s.cache
  effects : Fault.effects s'.faults = Fault.effects s.faults
  calm : ∀ text, h = some (.panic text) → .panic text ∈ Fault.effects s.faults

theorem keepsCache_of_aside {s s' : Site Memory κ} {h : Option Halt} (ha : Aside s h s') : KeepsCache s h s' :=
  ⟨ha.cache, ha.effects, ha.calm⟩

instance : Commits (@KeepsCache κ) where
  comp h₁ h₂ := ⟨h₂.cache.trans h₁.cache, h₂.effects.trans h₁.effects, fun text ht => h₁.effects ▸ h₂.calm text ht⟩
  silent h := keepsCache_of_aside h.toAside
  attempt h := { h with calm := nofun }
  write _ h := { h with }
  arrive p after s := keepsCache_of_aside (Within.arrive p after s).toAside

theorem KeepsCache.answered {s s' : Site Memory κ} {h : Option Halt} (hk : KeepsCache s h s') : KeepsCache s none s' :=
  { hk with calm := nofun }

theorem booked_undone {act : Act Memory κ Unit} {s : Site Memory κ} {P : Unit → Memory → Prop}
    (h : Obeys (Undone KeepsCache) act s P) (t : EventType) :
    Obeys (Undone KeepsCache) (do counted act; noteEvent t) s P := by
  obtain ⟨⟨kept, undone⟩, answer⟩ := h
  constructor <;> rw [bind_run, counted_run] <;> rcases hr : act s with ⟨(e | text) | a, s'⟩ <;>
    rw [hr] at kept undone answer
  · exact ⟨{ kept with calm := nofun }, fun _ => undone nofun⟩
  · exact ⟨kept, fun _ => undone nofun⟩
  · exact ⟨{ kept with calm := nofun }, nofun⟩
  · nofun
  · nofun
  · exact fun _ _ => answer () rfl

theorem storeAccepted_undone {o : Order} (new : o.status = .expects) (s : Site Memory κ) :
    Obeys (Undone KeepsCache) (storeAccepted o) s fun _ m => s.store.Changes (.accept o) m :=
  booked_undone (transaction_obeys fun s' hs => hs ▸ acceptWork_obeys new s') .orderAccepted

theorem storeReclaimed_undone (id : Nat) (s : Site Memory κ) :
    Obeys (Undone KeepsCache) (storeReclaimed id) s fun _ m => ∃ now, s.store.Changes (.reclaim now id) m :=
  booked_undone (transaction_obeys fun s' hs => hs ▸ reclaimWork_obeys id s') .orderReturnedToCourier

theorem batch_undone (userId : Nat) (action : Action) (now : Instant) (ids : List Nat) (s : Site Memory κ) :
    Obeys (Undone KeepsCache) (transaction (ids.mapM (applyInBatch userId action now))) s fun outcomes m =>
      s.store.Changed (doneChanges userId action now (doneIds outcomes)) m :=
  transaction_obeys fun s' hs =>
    ((batch_obeys userId action now ids s').weaken (keepsCache_of_aside ·.toAside)).mono fun _ _ h => hs ▸ h.2

/-! ## Steps that work -/

/-- a step that changes orders, or nothing -/
structure Worked (p : Progress) (s : Site Memory κ) (p' : Progress) (s' : Site Memory κ) : Prop where
  kept : KeepsCache s none s'
  reads : p'.reads? = none
  still : p.Still → p'.Still
  changed : ∃ cs, s.store.Changed cs s'.store ∧ ∀ c ∈ cs, c.orderId ∈ p'.drops ∧ p.May c

theorem Worked.of_kept {p p' : Progress} {s s' : Site Memory κ} {h : Option Halt} (kept : KeepsCache s h s')
    (store : s'.store = s.store) (reads : p'.reads? = none) (still : p.Still → p'.Still) : Worked p s p' s' :=
  ⟨kept.answered, reads, still, [], store ▸ .nil _, fun _ hc => absurd hc List.not_mem_nil⟩

theorem Worked.of_change {p p' : Progress} {s s' : Site Memory κ} {h : Option Halt} {c : Change}
    (kept : KeepsCache s h s') (change : s.store.Changes c s'.store) (reads : p'.reads? = none)
    (still : p.Still → p'.Still) (drops : c.orderId ∈ p'.drops) (may : p.May c) : Worked p s p' s' :=
  ⟨kept.answered, reads, still, [c], change.changed, fun _ hc => List.mem_singleton.1 hc ▸ ⟨drops, may⟩⟩

variable [HistoryCache κ]

theorem working_step {p : Progress} (sound : p.Sound) (drops : p.drops = []) (reads : p.reads? = none)
    (s : Site Memory κ) : Worked p s (p.step s).1 (p.step s).2 := by
  have same : KeepsCache s none s := Frame.silent (Silent.refl s)
  unfold Progress.step
  cases p with
  | recalling | reading | keeping => cases reads
  | dropping => cases drops
  | ended r => exact .of_kept same rfl rfl id
  | checking a origin =>
    have law := (checkAcceptance_obeys a s).law
    rw [Progress.advance, proceed_run]
    rcases hr : checkAcceptance a s with ⟨(e | text) | o, s'⟩ <;> rw [hr] at law
    · exact .of_kept (keepsCache_of_aside law.toAside) law.store (Progress.reads?_refused e origin) False.elim
    · exact .of_kept (keepsCache_of_aside law.toAside) law.store rfl False.elim
    · exact .of_kept (keepsCache_of_aside law.toAside) law.store rfl False.elim
  | storing o origin =>
    obtain ⟨⟨kept, undone⟩, answer⟩ := storeAccepted_undone sound s
    rw [Progress.advance, proceed_run]
    rcases hr : storeAccepted o s with ⟨(e | text) | _, s'⟩ <;> rw [hr] at kept undone answer
    · exact .of_kept kept (undone (Option.some_ne_none _)) (Progress.reads?_refused e origin) False.elim
    · exact .of_kept kept (undone (Option.some_ne_none _)) rfl False.elim
    · exact .of_change kept (answer () rfl) rfl False.elim (List.mem_singleton_self o.id) rfl
  | importing r left =>
    rcases left with _ | ⟨rejected | a, left⟩
    · exact .of_kept same rfl rfl False.elim
    · exact .of_kept { same with } rfl rfl False.elim
    · exact .of_kept same rfl rfl False.elim
  | reclaiming id =>
    obtain ⟨⟨kept, undone⟩, answer⟩ := storeReclaimed_undone id s
    rw [Progress.advance, bind_run]
    rcases hr : storeReclaimed id s with ⟨halt | _, s'⟩ <;> rw [hr] at kept undone answer
    · exact .of_kept kept (undone (Option.some_ne_none _)) rfl fun _ => trivial
    · obtain ⟨now, change⟩ := answer () rfl
      exact .of_change kept change rfl (fun _ => trivial) (List.mem_singleton_self id) rfl
  | timing userId action ids => exact .of_kept { same with } rfl rfl fun _ => trivial
  | processing userId action ids now =>
    obtain ⟨⟨kept, undone⟩, answer⟩ := batch_undone userId action now ids s
    rw [Progress.advance, bind_run, attempt_run]
    rcases hr : transaction (ids.mapM (applyInBatch userId action now)) s with ⟨(e | text) | outcomes, s'⟩ <;>
      rw [hr] at kept undone answer
    · refine .of_kept (h := none) { kept with calm := fun _ h => absurd h.symm (Option.some_ne_none _) }
        (undone (Option.some_ne_none _)) rfl fun _ => trivial
    · exact .of_kept kept (undone (Option.some_ne_none _)) rfl fun _ => trivial
    · obtain ⟨m, hn, -⟩ := noteBatch_run outcomes s'
      dsimp only
      rw [bind_run, hn]
      refine ⟨{ kept with }, rfl, fun _ => trivial, _, answer outcomes rfl, fun c hc => ?_⟩
      obtain ⟨id, hid, rfl⟩ := List.mem_map.1 hc
      exact ⟨hid, rfl, rfl, rfl⟩
  | clearing ids reply =>
    obtain rfl : ids = [] := drops
    exact .of_kept same rfl rfl fun _ => trivial
  | asking c =>
    have law := (question_tallied (s := s) sound).law
    rw [Progress.advance, bind_run]
    rcases hr : c.perform s with ⟨halt | reply, s'⟩ <;> rw [hr] at law
    · exact .of_kept (keepsCache_of_aside law.toAside) law.store rfl fun _ => trivial
    · exact .of_kept (keepsCache_of_aside law.toAside) law.store rfl fun _ => trivial

/-! ## Steps that read a history -/

namespace Progress

theorem recalling_step (id : Nat) (s : Site Memory κ) :
    (recalling id).step s = match cachedHistory id s with
      | (.ok (some history), s') => (.ended (.ok (.history history)), s')
      | (.ok none, s') => (.reading id, s')
      | (.error halt, s') => (.ended (.error halt), s') := by
  unfold step
  rw [advance, bind_run]
  rcases cachedHistory id s with ⟨_ | _ | _, _⟩ <;> rfl

theorem reading_step (id : Nat) (s : Site Memory κ) :
    (reading id).step s = match recordedHistory id s with
      | (.ok history, s') => (.keeping id history, s')
      | (.error halt, s') => (.ended (.error halt), s') := by
  unfold step
  rw [advance, bind_run]
  rcases recordedHistory id s with ⟨_ | _, _⟩ <;> rfl

theorem keeping_step (id : Nat) (history : List HistoryEntry) (s : Site Memory κ) :
    (keeping id history).step s = match keepHistory id history s with
      | (.ok _, s') => (.ended (.ok (.history history)), s')
      | (.error halt, s') => (.ended (.error halt), s') := by
  unfold step
  rw [advance, bind_run]
  rcases keepHistory id history s with ⟨_ | _, _⟩ <;> rfl

end Progress

/-! ## What is asked of the cache -/

variable {σ : Type} [LawfulCache κ]

/-- no fault is set, and the cache serves -/
structure Fair (s : Site σ κ) : Prop where
  faultless : s.faults = []
  serves : Serves s.cache

theorem Fair.kept {s s' : Site Memory κ} {h : Option Halt} (fair : Fair s) (kept : KeepsCache s h s') : Fair s' where
  faultless := Fault.none_of_effects kept.effects fair.faultless
  serves := kept.cache ▸ fair.serves

theorem Fair.calm {s s' : Site Memory κ} {h : Option Halt} (fair : Fair s) (kept : KeepsCache s h s') (text : String) :
    h ≠ some (.panic text) := fun hh => by
  have shown := kept.calm text hh
  rw [fair.faultless] at shown
  exact absurd shown List.not_mem_nil

theorem dropHistory_run (id : Nat) (s : Site σ κ) :
    ∃ fs c r, dropHistory id s = (r, { s with faults := fs, cache := c }) ∧ (∀ e, Holds c e → Holds s.cache e) ∧
      (Fair s → r = .ok () ∧ fs = [] ∧ Serves c ∧ ∀ e, Holds c e → e.key ≠ cacheKey id) := by
  unfold dropHistory
  obtain ⟨fs, r, c, hr, none, answered⟩ := askCache_run .cacheDelete (HistoryCache.delete (cacheKey id)) s
  rw [bind_run, hr]
  cases answered with
  | missed faulty => exact ⟨fs, _, _, rfl, fun _ he => he, fun fair => absurd fair.faultless faulty⟩
  | panicked faulty => exact ⟨fs, _, _, rfl, fun _ he => he, fun fair => absurd fair.faultless faulty⟩
  | done =>
    refine ⟨fs, (HistoryCache.delete (cacheKey id) s.clock.current s.cache).2,
      (heard (HistoryCache.delete (cacheKey id) s.clock.current s.cache).1).map fun _ => (), ?_,
      fun e he => (delete_holds he).1, fun fair => ?_⟩
    · rcases heard (HistoryCache.delete (cacheKey id) s.clock.current s.cache).1 with _ | _ <;> rfl
    · obtain ⟨done, serves⟩ := delete_serves fair.serves
      exact ⟨by rw [done]; rfl, none fair.faultless, serves, fun e he => (delete_holds he).2 done⟩

/-- what the cache may answer of a history -/
inductive Recalled (id : Nat) (s : Site σ κ) : Except Halt (Option (List HistoryEntry)) → Prop
  | missed : Recalled id s (.ok none)
  | found {e : TimedEntry} {h : List HistoryEntry} (held : Holds s.cache e) (key : e.key = cacheKey id)
    (due : s.clock.current < e.expiresAt) (read : historyOfText? e.value = some h) : Recalled id s (.ok (some h))
  | panicked (text : String) : Recalled id s (.error (.panic text))

theorem recalled_of_heard {id : Nat} {s : Site σ κ} {answer : Except CacheFailure (Option String)}
    (h : (HistoryCache.get (cacheKey id) s.clock.current s.cache).1 = answer) :
    Recalled id s ((heard answer).map fun answer => (answer.bind (·)).bind historyOfText?) := by
  rcases answer with (_ | text) | _ | v
  · exact .missed
  · exact .panicked text
  · exact .missed
  · obtain ⟨e, held, key, rfl, due⟩ := get_answer h
    show Recalled id s (.ok (historyOfText? e.value))
    rcases hv : historyOfText? e.value with _ | history
    · exact .missed
    · exact .found held key due hv

theorem cachedHistory_run (id : Nat) (s : Site σ κ) :
    ∃ fs c r, cachedHistory id s = (r, { s with faults := fs, cache := c }) ∧ (∀ e, Holds c e → Holds s.cache e) ∧
      Recalled id s r ∧ (Fair s → fs = [] ∧ Serves c ∧ ∃ a, r = .ok a) := by
  obtain ⟨fs, r, c, hr, none, answered⟩ := askCache_run .cacheGet (HistoryCache.get (cacheKey id)) s
  refine ⟨fs, c, r.map fun answer => (answer.bind (·)).bind historyOfText?, ?_, ?_⟩
  · unfold cachedHistory
    rw [bind_run, hr]
    cases r <;> rfl
  cases answered with
  | missed faulty => exact ⟨fun _ he => he, .missed, fun fair => absurd fair.faultless faulty⟩
  | panicked faulty text => exact ⟨fun _ he => he, .panicked text, fun fair => absurd fair.faultless faulty⟩
  | done =>
    refine ⟨fun _ he => get_holds he, recalled_of_heard rfl, fun fair => ?_⟩
    obtain ⟨⟨answer, ha⟩, serves⟩ := @get_serves κ _ _ (cacheKey id) s.clock.current _ fair.serves
    exact ⟨none fair.faultless, serves, _, by rw [ha]; rfl⟩

/-- what the cache holds once a history has been put there -/
def keptEntry (id : Nat) (history : List HistoryEntry) (s : Site σ κ) : TimedEntry :=
  ⟨cacheKey id, historyText history, s.clock.current.later (lifetime κ s.cacheTtl)⟩

theorem keepHistory_run (id : Nat) (history : List HistoryEntry) (s : Site σ κ) :
    ∃ fs c r, keepHistory id history s = (r, { s with faults := fs, cache := c }) ∧
      (∀ e, Holds c e → Holds s.cache e ∨ e = keptEntry id history s) ∧
      (Fair s → fs = [] ∧ Serves c ∧ (Counts κ s.cacheTtl s.clock.current → r = .ok ())) := by
  obtain ⟨fs, r, c, hr, none, answered⟩ :=
    askCache_run .cacheSet (HistoryCache.set (cacheKey id) (historyText history) s.cacheTtl) s
  refine ⟨fs, c, r.map fun _ => (), ?_, ?_⟩
  · unfold keepHistory
    rw [bind_run]
    show (askCache .cacheSet (HistoryCache.set (cacheKey id) (historyText history) s.cacheTtl) >>=
      fun _ => pure () : Act σ κ Unit) s = _
    rw [bind_run, hr]
    cases r <;> rfl
  cases answered with
  | missed faulty => exact ⟨fun _ he => .inl he, fun fair => absurd fair.faultless faulty⟩
  | panicked faulty text => exact ⟨fun _ he => .inl he, fun fair => absurd fair.faultless faulty⟩
  | done =>
    refine ⟨fun _ he => set_holds he, fun fair => ⟨none fair.faultless, set_serves fair.serves, fun counts => ?_⟩⟩
    rcases ha : (HistoryCache.set (cacheKey id) (historyText history) s.cacheTtl s.clock.current s.cache).1 with
      (_ | text) | _
    · rfl
    · exact absurd ha (set_counts counts)
    · rfl

/-! ## Steps that drop a history -/

/-- a step that drops a history of those that are pending -/
structure Dropped (id : Nat) (rest : List Nat) (p : Progress) (s : Site Memory κ) (p' : Progress) (s' : Site Memory κ) :
    Prop where
  store : s'.store = s.store
  reads : p'.reads? = none
  still : p.Still → p'.Still
  holds : ∀ e, Holds s'.cache e → Holds s.cache e
  fair : Fair s → p'.drops = rest ∧ Fair s' ∧ ∀ e, Holds s'.cache e → e.key ≠ cacheKey id

theorem dropping_step {p : Progress} {id : Nat} {rest : List Nat} (drops : p.drops = id :: rest) (s : Site Memory κ) :
    Dropped id rest p s (p.step s).1 (p.step s).2 := by
  unfold Progress.step
  cases p with
  | dropping o origin =>
    cases drops
    obtain ⟨fs, c, r, hr, holds, fair⟩ := dropHistory_run o.id s
    rw [Progress.advance, proceed_run, hr]
    rcases r with (e | text) | _
    · exact ⟨rfl, Progress.reads?_refused e origin, False.elim, holds, fun h => by cases (fair h).1⟩
    · exact ⟨rfl, rfl, False.elim, holds, fun h => by cases (fair h).1⟩
    · refine ⟨rfl, Progress.reads?_accepted o origin, False.elim, holds, fun h => ?_⟩
      obtain ⟨-, faultless, serves, gone⟩ := fair h
      exact ⟨Progress.drops_accepted o origin, ⟨faultless, serves⟩, gone⟩
  | clearing ids reply =>
    obtain rfl : ids = id :: rest := drops
    obtain ⟨fs, c, r, hr, holds, fair⟩ := dropHistory_run id s
    rw [Progress.advance, bind_run, hr]
    rcases r with halt | _
    · exact ⟨rfl, rfl, fun _ => trivial, holds, fun h => by cases (fair h).1⟩
    · refine ⟨rfl, rfl, fun _ => trivial, holds, fun h => ?_⟩
      obtain ⟨-, faultless, serves, gone⟩ := fair h
      exact ⟨rfl, ⟨faultless, serves⟩, gone⟩
  | checking | storing | importing | reclaiming | timing | processing | recalling | reading | keeping | asking | ended =>
    cases drops

end PickupPoint
