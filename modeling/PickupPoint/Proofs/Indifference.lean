/-
The cache decides nothing.

Two services work on stores of one kind and have any two caches, which may answer whatever they like, true, false or
nothing at all, as long as they do not panic. Then all that can be told apart is what is answered to a look at a history:
the stores stay the same but for event ids, the same events are counted, and every other call is answered the same
(`cache_decides_nothing`). A look is answered by a list read from what the cache said, or as the store has it (`Told`).
-/
import PickupPoint.Cache.KeyValue
import PickupPoint.Proofs.IdBlind
import PickupPoint.Proofs.Staleness
import PickupPoint.Proofs.Steady

namespace PickupPoint

open Act

variable {σ κ ν α : Type}

/-! ## Asking a cache that does not panic -/

/-- a cache that fails without a panic, if it fails -/
structure NeverPanics (κ : Type) [HistoryCache κ] : Prop where
  get (key : String) (now : Instant) (c : κ) (text : String) : (HistoryCache.get key now c).1 ≠ .error (.panic text)
  set (key value : String) (ttl : Nat) (now : Instant) (c : κ) (text : String) :
    (HistoryCache.set key value ttl now c).1 ≠ .error (.panic text)
  delete (key : String) (now : Instant) (c : κ) (text : String) :
    (HistoryCache.delete key now c).1 ≠ .error (.panic text)

/-- nothing but the cache, its faults and the count of failures has become something else -/
structure CacheOnly (s s₁ : Site σ κ) : Prop where
  store : s₁.store = s.store
  clock : s₁.clock = s.clock
  events : s₁.metrics.events = s.metrics.events
  faults : Fault.OfCache s₁.faults

theorem CacheOnly.trans {s s₁ s₂ : Site σ κ} (h₁ : CacheOnly s s₁) (h₂ : CacheOnly s₁ s₂) : CacheOnly s s₂ :=
  ⟨h₂.store.trans h₁.store, h₂.clock.trans h₁.clock, h₂.events.trans h₁.events, h₂.faults⟩

theorem onCache_told {op : Instant → CacheAccess κ α} (quiet : ∀ now c text, (op now c).1 ≠ .error (.panic text))
    (s : Site σ κ) :
    ∃ a, onCache op s = (.ok a, { s with cache := (op s.clock.current s.cache).2 }) ∧
      ∀ x, a = some x → (op s.clock.current s.cache).1 = .ok x := by
  rw [onCache_run]
  rcases hr : (op s.clock.current s.cache).1 with (_ | text) | x
  · exact ⟨none, rfl, nofun⟩
  · exact absurd hr (quiet _ _ text)
  · exact ⟨some x, rfl, fun y hy => by cases hy; rfl⟩

/-- Such a cache is asked without harm, and what is heard of it is what it answered. -/
theorem askCache_told {op : Instant → CacheAccess κ α} (quiet : ∀ now c text, (op now c).1 ≠ .error (.panic text))
    (p : Point) {s : Site σ κ} (faults : Fault.OfCache s.faults) :
    ∃ a s₁, askCache p op s = (.ok a, s₁) ∧ CacheOnly s s₁ ∧
      ∀ x, a = some x → (op s.clock.current s.cache).1 = .ok x := by
  obtain ⟨a, hr, told⟩ := onCache_told quiet { s with faults := (Fault.arrive p false s.faults).2 }
  have arrived := faults.arrived p false
  unfold askCache
  rw [bind_run, attempt_run, arrive_run]
  rcases hm : (Fault.arrive p false s.faults).1 with _ | e | text | _
  · exact ⟨a, _, hr, ⟨rfl, rfl, rfl, arrived⟩, told⟩
  · exact ⟨none, _, rfl, ⟨rfl, rfl, rfl, arrived⟩, nofun⟩
  · exact absurd (Fault.effect_mem hm) (faults.calm text)
  · exact ⟨a, _, hr, ⟨rfl, rfl, rfl, arrived⟩, told⟩

section Quiet

variable [HistoryCache κ] (quiet : NeverPanics κ)
include quiet

theorem dropHistory_told (id : Nat) {s : Site σ κ} (faults : Fault.OfCache s.faults) :
    ∃ s₁, dropHistory id s = (.ok (), s₁) ∧ CacheOnly s s₁ := by
  obtain ⟨a, s₁, hr, only, -⟩ := askCache_told (quiet.delete (cacheKey id)) .cacheDelete faults
  refine ⟨s₁, ?_, only⟩
  unfold dropHistory
  rw [bind_run, hr]; rfl

theorem keepHistory_told (id : Nat) (history : List HistoryEntry) {s : Site σ κ} (faults : Fault.OfCache s.faults) :
    ∃ s₁, keepHistory id history s = (.ok (), s₁) ∧ CacheOnly s s₁ := by
  obtain ⟨a, s₁, hr, only, -⟩ :=
    askCache_told (quiet.set (cacheKey id) (historyText history) s.cacheTtl) .cacheSet faults
  refine ⟨s₁, ?_, only⟩
  unfold keepHistory
  rw [bind_run]
  show (askCache .cacheSet (HistoryCache.set (cacheKey id) (historyText history) s.cacheTtl) >>=
    fun _ => pure () : Act σ κ Unit) s = _
  rw [bind_run, hr]; rfl

/-- the cache answers a text that reads as a history -/
def SaidByCache (id : Nat) (s : Site σ κ) (h : List HistoryEntry) : Prop :=
  ∃ text, (HistoryCache.get (cacheKey id) s.clock.current s.cache).1 = .ok (some text) ∧ historyOfText? text = some h

theorem cachedHistory_told (id : Nat) {s : Site σ κ} (faults : Fault.OfCache s.faults) :
    ∃ found s₁, cachedHistory id s = (.ok found, s₁) ∧ CacheOnly s s₁ ∧ ∀ h, found = some h → SaidByCache id s h := by
  obtain ⟨a, s₁, hr, only, told⟩ := askCache_told (quiet.get (cacheKey id)) .cacheGet faults
  refine ⟨(a.bind (·)).bind historyOfText?, s₁, ?_, only, fun h hh => ?_⟩
  · unfold cachedHistory
    rw [bind_run, hr]; rfl
  · rcases a with _ | _ | text
    · cases hh
    · cases hh
    · exact ⟨text, told _ rfl, hh⟩

/-! ## Looks at a history -/

variable [OrderStore σ]

omit quiet [HistoryCache κ] in
/-- the history of an order as the store has it; an order without one is not known -/
def directHistory (id : Nat) (m : σ) : Except Error (List HistoryEntry) :=
  match (OrderStore.orderHistory id m).1 with
  | .ok [] => .error .orderNotFound
  | r => r

omit quiet [HistoryCache κ] in
theorem recordedHistory_told (id : Nat) {s : Site σ κ} (faults : Fault.OfCache s.faults)
    (reads : (OrderStore.orderHistory id s.store).2 = s.store) :
    ∃ s₁, recordedHistory id s = (outcome (directHistory id s.store), s₁) ∧ CacheOnly s s₁ ∧ Untouched s s₁ := by
  have read : storedOrderHistory id s = (outcome (OrderStore.orderHistory id s.store).1, s) := by
    unfold storedOrderHistory reachedAt
    rw [bind_run, Near.arrive (by decide) false faults]
    dsimp only
    rw [bind_run, onStore_run, reads]
    rcases (OrderStore.orderHistory id s.store : Except Error (List HistoryEntry) × σ).1 with _ | h
    · rfl
    · dsimp only [Except.mapError]
      rw [bind_run, Near.arrive (by decide) true faults]; rfl
  unfold recordedHistory directHistory
  rw [bind_run, counted_run, read]
  rcases (OrderStore.orderHistory id s.store : Except Error (List HistoryEntry) × σ).1 with e | _ | ⟨e, h⟩
  · exact ⟨_, rfl, ⟨rfl, rfl, rfl, faults⟩, rfl, rfl, rfl, rfl⟩
  · exact ⟨_, rfl, ⟨rfl, rfl, rfl, faults⟩, rfl, rfl, rfl, rfl⟩
  · exact ⟨s, rfl, ⟨rfl, rfl, rfl, faults⟩, .refl s⟩

omit quiet in
/-- what a look may come to: a list read from what the cache said, or the history as the store has it -/
def Told (id : Nat) (s : Site σ κ) (r : Except Halt (List HistoryEntry)) : Prop :=
  (∃ h, SaidByCache id s h ∧ r = .ok h) ∨ r = outcome (directHistory id s.store)

theorem orderHistory_told (id : Nat) {s : Site σ κ} (faults : Fault.OfCache s.faults)
    (reads : (OrderStore.orderHistory id s.store).2 = s.store) :
    Told id s (orderHistory id s).1 ∧ CacheOnly s (orderHistory id s).2 := by
  obtain ⟨found, s₁, hr, only, recalled⟩ := cachedHistory_told quiet id faults
  unfold orderHistory
  rw [bind_run, hr]
  rcases found with _ | h
  · obtain ⟨s₂, hr₂, only₂, -⟩ := recordedHistory_told id only.faults (only.store.symm ▸ reads)
    dsimp only
    rw [bind_run, hr₂, only.store]
    rcases hd : directHistory id s.store with e | h
    · exact ⟨.inr (by rw [hd]; rfl), only.trans only₂⟩
    · obtain ⟨s₃, hr₃, only₃⟩ := keepHistory_told quiet id h only₂.faults
      dsimp only [outcome, Except.mapError]
      rw [bind_run, hr₃]
      exact ⟨.inr (by rw [hd]; rfl), (only.trans only₂).trans only₃⟩
  · exact ⟨.inl ⟨h, recalled h rfl, rfl⟩, only⟩

end Quiet

/-! ## Two sessions -/

/-- Two services that can be told apart by their caches, their failures and their event ids alone, between calls. Nothing
but a cache fails on purpose. -/
structure Twins [OrderStore σ] [IdBlind σ] (s : Site σ κ) (s' : Site σ ν) : Prop where
  store : IdBlind.Same s.store s'.store
  clock : s'.clock = s.clock
  events : s'.metrics.events = s.metrics.events
  faults : Fault.OfCache s.faults
  faults' : Fault.OfCache s'.faults

section Twins

variable [OrderStore σ] [IdBlind σ]

/-- what relates twins, as it goes through a session -/
def Beside (σ : Type) [OrderStore σ] [IdBlind σ] : Simulation σ σ := .ofSame IdBlind.Same IdBlind.Inside

theorem twins_iff {s : Site σ κ} {s' : Site σ ν} :
    Twins s s' ↔ Near (Beside σ).time s s' ((Beside σ).rest []) s s' :=
  ⟨fun h => ⟨h.clock, h.events, fun _ => trivial, h.faults, h.faults', .refl s, .refl s', h.store⟩,
    fun h => ⟨h.stores, h.clock, h.events, h.faults, h.faults'⟩⟩

theorem Twins.of_near {ids : List Nat} {s₀ s : Site σ κ} {s₀' s' : Site σ ν}
    (h : Near (Beside σ).time s₀ s₀' ((Beside σ).rest ids) s s') : Twins s s' :=
  twins_iff.2 h.anew

/-- The history of an order is read the same on both sides, which changes nothing. -/
theorem Twins.reads {s : Site σ κ} {s' : Site σ ν} (h : Twins s s') (id : Nat) :
    (OrderStore.orderHistory id s.store).2 = s.store ∧ (OrderStore.orderHistory id s'.store).2 = s'.store := by
  have rest : (Beside σ).rest [] s.store s'.store := h.store
  have read : Simulation.Reads _ s.store s'.store (OrderStore.orderHistory id s.store)
      (OrderStore.orderHistory id s'.store) := IdBlind.sound.orderHistory rest trivial
  generalize OrderStore.orderHistory id s.store = x at read ⊢
  generalize OrderStore.orderHistory id s'.store = y at read ⊢
  obtain ⟨r, m⟩ := x
  obtain ⟨r', n⟩ := y
  cases read with
  | ok hq => exact hq.2
  | error he => exact he

theorem Twins.only {s s₁ : Site σ κ} {s' s₁' : Site σ ν} (h : Twins s s') (left : CacheOnly s s₁)
    (right : CacheOnly s' s₁') : Twins s₁ s₁' where
  store := by rw [left.store, right.store]; exact h.store
  clock := by rw [left.clock, right.clock]; exact h.clock
  events := by rw [left.events, right.events]; exact h.events
  faults := left.faults
  faults' := right.faults

/-- What goes together on stores that are the same but for event ids, goes together for twins. -/
theorem twins_together {β : Type} {act : Act σ κ α} {act' : Act σ ν β} {R : α → β → Prop}
    (acts : ∀ s₀ s₀', Together (Near (Beside σ).time s₀ s₀' ((Beside σ).rest [])) act act'
      (fun a b s s' => R a b ∧ Near (Beside σ).time s₀ s₀' ((Beside σ).rest []) s s')
      (Near (Beside σ).time s₀ s₀' ((Beside σ).rest []))) :
    Together Twins act act' (fun a b s s' => R a b ∧ Twins s s') Twins := by
  intro s s' h
  obtain ⟨r, r', s₁, s₁', hr, hr', ends⟩ := acts s s' s s' (twins_iff.1 h)
  exact ⟨r, r', s₁, s₁', hr, hr', ends.mono (fun _ _ _ _ hq => ⟨hq.1, .of_near hq.2⟩) fun _ _ => .of_near⟩

variable [HistoryCache κ] [HistoryCache ν]

/-- Whatever the caches answer, twins stay twins. -/
theorem twins_careful (quiet : NeverPanics κ) (quiet' : NeverPanics ν) :
    Careful (Beside σ) fun (_ : List Nat) (s : Site σ κ) (s' : Site σ ν) => Twins s s' where
  sound := IdBlind.sound
  near h := ⟨[], twins_iff.1 h⟩
  idle h near := by
    have back : Near (Beside σ).time _ _ ((Beside σ).rest []) _ _ := near.mono fun _ _ => And.left
    exact .of_near back
  accepted {o} _ _ := by
    have stored : Together Twins (storeAccepted o : Act σ κ Unit) (storeAccepted o : Act σ ν Unit)
        (fun _ _ s s' => True ∧ Twins s s') Twins := twins_together fun s₀ s₀' =>
      (IdBlind.sound.storeAccepted_rest trivial).weaken fun _ _ _ _ near => ⟨trivial, near⟩
    exact stored.weaken fun _ _ _ _ => And.right
  reclaimed {id} _ := by
    have stored : Together Twins (storeReclaimed id : Act σ κ Unit) (storeReclaimed id : Act σ ν Unit)
        (fun _ _ s s' => True ∧ Twins s s') Twins := twins_together fun s₀ s₀' =>
      (IdBlind.sound.storeReclaimed_rest trivial).weaken fun _ _ _ _ near => ⟨trivial, near⟩
    exact stored.weaken fun _ _ _ _ => And.right
  processed {userId action now ids} fits time :=
    twins_together fun s₀ s₀' => IdBlind.sound.batch_rest fits time
  dropped {id pending} s s' h := by
    obtain ⟨s₁, hr, only⟩ := dropHistory_told quiet id h.faults
    obtain ⟨s₁', hr', only'⟩ := dropHistory_told quiet' id h.faults'
    exact ⟨.ok (), .ok (), s₁, s₁', hr, hr', .ok (h.only only only')⟩
  looked {id s s'} _ h :=
    h.only (orderHistory_told quiet id h.faults (h.reads id).1).2
      (orderHistory_told quiet' id h.faults' (h.reads id).2).2

/-- Questions about one store have one answer. -/
theorem twins_question (quiet : NeverPanics κ) (quiet' : NeverPanics ν) {c : Call} (question : c.IsQuestion) :
    Together (fun (s : Site σ κ) (s' : Site σ ν) => Twins s s') c.perform c.perform
      (fun r r' s s' => r' = r ∧ Twins s s') Twins := by
  have careful : Careful (Beside σ) fun (_ : List Nat) (s : Site σ κ) (s' : Site σ ν) => Twins s s' :=
    twins_careful quiet quiet'
  have sound : (Beside σ).Sound := IdBlind.sound
  have listed : ∀ {γ : Type} {f : List Order → γ} {c c'},
      (∃ l l', (Beside σ).listed l l' ∧ c = f l ∧ c' = f l') → c' = c := by
    rintro γ f _ _ ⟨l, _, rfl, rfl, rfl⟩
    rfl
  cases c with
  | list userId inPickupPoint last page limit =>
    refine (careful.still [] fun _ _ _ _ _ => (sound.listOrders_still userId inPickupPoint last page
      limit).weaken fun _ _ _ _ hq => ⟨listed hq.1, hq.2⟩).bind fun a b => .given ?_
    rintro rfl
    exact .pure fun _ _ hk => ⟨rfl, hk⟩
  | returns page limit =>
    refine (careful.still [] fun _ _ _ _ _ => (sound.listReturns_still page limit).weaken
      fun _ _ _ _ hq => ⟨listed hq.1, hq.2⟩).bind fun a b => .given ?_
    rintro rfl
    exact .pure fun _ _ hk => ⟨rfl, hk⟩
  | scroll userId cursor limit =>
    refine (careful.still [] fun _ _ _ _ _ => (sound.scrollOrders_still userId cursor limit).weaken
      fun _ _ _ _ hq => ⟨listed hq.1, hq.2⟩).bind fun a b => .given ?_
    rintro rfl
    exact .pure fun _ _ hk => ⟨rfl, hk⟩
  | history page count =>
    refine (careful.still [] fun _ _ _ _ _ => (sound.historyPage_still page count).weaken
      fun _ _ _ _ hq => ⟨hq.1, hq.2⟩).bind fun a b => .given ?_
    rintro rfl
    exact .pure fun _ _ hk => ⟨rfl, hk⟩
  | get id =>
    refine (careful.still [] fun _ _ _ _ _ => (sound.getOrder_still trivial).weaken
      fun _ _ _ _ hq => ⟨Order.eq_of_alike hq.1, hq.2⟩).bind fun a b => .given ?_
    rintro rfl
    exact .pure fun _ _ hk => ⟨rfl, hk⟩
  | accept | reclaim | process | importAll | orderHistory => cases question

/-- Every call but a look at a history has one reply. -/
theorem Twins.same_reply (quiet : NeverPanics κ) (quiet' : NeverPanics ν) {s : Site σ κ} {s' : Site σ ν}
    (h : Twins s s') {c : Call} (other : ∀ id, c ≠ .orderHistory id) : (c.perform s').1 = (c.perform s).1 := by
  have careful : Careful (Beside σ) fun (_ : List Nat) (s : Site σ κ) (s' : Site σ ν) => Twins s s' :=
    twins_careful quiet quiet'
  have changed : c.IsChange → (Beside σ).Allows c → (c.perform s').1 = (c.perform s).1 := fun change allowed =>
    careful.same_reply change allowed h
  have asked : c.IsQuestion → (c.perform s').1 = (c.perform s).1 := fun question =>
    (Careful.same (K := fun _ => Twins) (twins_question quiet quiet' question) h).1
  cases c with
  | accept | reclaim => exact changed trivial trivial
  | process | importAll => exact changed trivial fun _ _ => trivial
  | list | returns | scroll | history | get => exact asked trivial
  | orderHistory id => exact absurd rfl (other id)

/-- what two services have come to whose caches differ -/
structure Indistinct (s : Site σ κ) (s' : Site σ ν) : Prop where
  /-- the same store but for event ids, and the same events counted -/
  twins : Twins s s'
  replies : ∀ c : Call, (∀ id, c ≠ .orderHistory id) → (c.perform s').1 = (c.perform s).1
  looks : ∀ id, Told id s (orderHistory id s).1 ∧ Told id s' (orderHistory id s').1

/-- **The cache decides nothing.** Whatever two caches answer, as long as they do not panic, two services that differ in
nothing else go through every session alike: what is stored is the same but for event ids, the same events are counted,
and every call has the same reply, but for looks at a history. A look is answered by a list that was read from what the
cache said, or as the store has it. -/
theorem cache_decides_nothing (quiet : NeverPanics κ) (quiet' : NeverPanics ν) {s : Site σ κ} {s' : Site σ ν}
    (twins : Twins s s') (turns : List Turn) : Indistinct (Turn.run s turns) (Turn.run s' turns) := by
  have careful : Careful (Beside σ) fun (_ : List Nat) (s : Site σ κ) (s' : Site σ ν) => Twins s s' :=
    twins_careful quiet quiet'
  have allowed : (Beside σ).AllowsAll turns := fun c _ => by
    cases c <;> first | trivial | exact fun _ _ => trivial
  have after := careful.run allowed twins
  exact ⟨after, fun _ other => after.same_reply quiet quiet' other, fun id =>
    ⟨(orderHistory_told quiet id after.faults (after.reads id).1).1,
      (orderHistory_told quiet' id after.faults' (after.reads id).2).1⟩⟩

end Twins

/-! ## A cache that makes things up -/

/-- whatever it is asked for, it has an empty history -/
structure MadeUpCache where
  deriving DecidableEq

instance : HistoryCache MadeUpCache where
  get _ _ c := (.ok (some "[]"), c)
  set _ _ _ _ c := (.error .unavailable, c)
  delete _ _ c := (.ok (), c)

theorem madeUp_quiet : NeverPanics MadeUpCache := ⟨nofun, nofun, nofun⟩

theorem server_quiet : NeverPanics CacheServer where
  get key now c text h := by
    change (CacheServer.get key now c).1 = _ at h
    unfold CacheServer.get at h
    split at h <;> cases h
  set key value ttl now c text h := by
    change (CacheServer.set key value ttl now c).1 = _ at h
    unfold CacheServer.set at h
    dsimp only at h
    split at h <;> cases h
  delete := caches_dropQuietly.2.1

/-- a service over the tables of a database that has such a clock, with nothing in them -/
def openingTables {κ : Type} (clock : Clock) (cache : κ) : Site Tables κ :=
  { opening cache with store := .empty clock }

/-- a clock that stands still -/
def Clock.still : Clock := ⟨fun _ => ⟨0, 0⟩, 0⟩

theorem opening_twins {κ ν : Type} (cache : κ) (cache' : ν) : Twins (opening cache) (opening cache') :=
  ⟨rfl, rfl, rfl, .of_nil rfl, .of_nil rfl⟩

theorem openingTables_twins {κ ν : Type} (clock : Clock) (cache : κ) (cache' : ν) :
    Twins (openingTables clock cache) (openingTables clock cache') :=
  ⟨⟨⟨rfl, [], rfl, rfl⟩, rfl⟩, rfl, rfl, .of_nil rfl, .of_nil rfl⟩

/-- A parcel is collected, in memory and in the tables of a database. One cache makes up an empty history, and the other
does not; what is stored is the true one. -/
theorem cache_decides_nothing_of_made_up :
    (Indistinct (Turn.run (opening CacheServer.empty) collected) (Turn.run (opening MadeUpCache.mk) collected) ∧
        (orderHistory 1 (Turn.run (opening CacheServer.empty) collected)).1.toOption.map (·.map (·.status)) =
          some [.expects, .accepted] ∧
        (orderHistory 1 (Turn.run (opening MadeUpCache.mk) collected)).1 = .ok []) ∧
      Indistinct (Turn.run (openingTables .still CacheServer.empty) collected)
        (Turn.run (openingTables .still MadeUpCache.mk) collected) ∧
      (Turn.run (openingTables .still MadeUpCache.mk) collected).store.history.map (·.status) =
        ["EXPECTS", "ACCEPTED"] ∧
      (orderHistory 1 (Turn.run (openingTables .still MadeUpCache.mk) collected)).1 = .ok [] :=
  ⟨⟨cache_decides_nothing server_quiet madeUp_quiet (opening_twins _ _) collected, by decide +kernel, by decide +kernel⟩,
    cache_decides_nothing server_quiet madeUp_quiet (openingTables_twins _ _ _) collected, by decide +kernel,
    by decide +kernel⟩

end PickupPoint
