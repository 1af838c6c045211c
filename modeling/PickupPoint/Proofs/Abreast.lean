/-
The service over the store in memory, and over the tables of a database, in step.

Two services are `Abreast` if the tables mirror the store, nothing fails on purpose, and each cache holds of every order
only what tells its history, unless that is still to be dropped. All that the service does keeps them so
(`abreast_careful`), and a look at a history tells the same on both sides, in whatever cache it is found
(`Abreast.look`). What the tables tell of a history is known only if the clock of the database never goes back; all else
is said for every such clock.

The ids go along in the order in which the orders came, which can be read off the history (`Memory.arrivals`).
-/
import PickupPoint.Proofs.Coherence
import PickupPoint.Proofs.Indifference
import PickupPoint.Proofs.Mirror

namespace PickupPoint

open Act LawfulCache

open List (Forall₂)

/-! ## Which orders came when -/

/-- the ids of the stored orders after an entry was written -/
def shelve (ids : List Nat) (e : HistoryEntry) : List Nat :=
  match e.status with
  | .expects => ids ++ [e.orderId]
  | .deleted => ids.filter (· ≠ e.orderId)
  | .accepted | .returned => ids

/-- the ids of the stored orders, in the order in which their parcels were accepted -/
def Memory.arrivals (m : Memory) : List Nat := m.history.foldl shelve []

theorem arrivals_changes {m m' : Memory} {c : Change} (h : m.Changes c m') :
    m'.arrivals = match c with
      | .accept o => m.arrivals ++ [o.id]
      | .reclaim _ id => m.arrivals.filter (· ≠ id)
      | .process .. => m.arrivals := by
  obtain ⟨written, -, history, -⟩ := h.appended
  unfold Memory.arrivals
  rw [history, List.foldl_append]
  cases h with
  | accepted | reclaimed => rfl
  | processed st found own due after =>
    obtain ⟨-, ⟨rfl, -⟩ | ⟨rfl, -⟩⟩ := Order.after_ok after <;> rfl

theorem arrivals_batch {m m' : Memory} {userId : Nat} {action : Action} {now : Instant} {ids : List Nat}
    (h : m.Changed (doneChanges userId action now ids) m') : m'.arrivals = m.arrivals := by
  have only : ∀ {m m' : Memory} {cs : List Change}, m.Changed cs m' →
      (∀ c ∈ cs, ∃ id, c = .process userId action now id) → m'.arrivals = m.arrivals := by
    intro m m' cs h
    induction h with
    | nil => exact fun _ => rfl
    | cons head _ ih =>
      intro processed
      obtain ⟨id, rfl⟩ := processed _ List.mem_cons_self
      exact (ih fun c hc => processed c (List.mem_cons_of_mem _ hc)).trans (arrivals_changes head)
  refine only h fun c hc => ?_
  obtain ⟨id, -, rfl⟩ := List.mem_map.1 hc
  exact ⟨id, rfl⟩

/-! ## What is told of a history -/

/-- what an entry tells, but for its id and its time -/
def HistoryEntry.told (e : HistoryEntry) : Nat × Status := (e.orderId, e.status)

theorem told_of_retold {h h' : List HistoryEntry} (retold : Forall₂ HistoryEntry.Retold h h') :
    h'.map HistoryEntry.told = h.map HistoryEntry.told := by
  have same : Forall₂ (fun e e' : HistoryEntry => e.told = e'.told) h h' :=
    retold.imp fun _ _ again => Prod.ext again.orderId.symm again.status.symm
  exact (map_eq_of_forall₂ same).symm

theorem proper_of_retold {h h' : List HistoryEntry} (retold : Forall₂ HistoryEntry.Retold h h') :
    ∀ e ∈ h', e.createdAt.Proper := by
  intro e he
  obtain ⟨_, -, again⟩ := exists_of_forall₂ retold.flip he
  exact HistoryEntry.Retold.proper' again

/-- the list tells the history of an order, which is known -/
def Memory.Tells (m : Memory) (id : Nat) (h : List HistoryEntry) : Prop :=
  h.map HistoryEntry.told = (m.orderHistory id).map HistoryEntry.told ∧ m.orderHistory id ≠ []

/-- What is held in a cache under the key of an order tells its history, if it can be read at all. Histories that are
still to be dropped may be older. -/
def Memory.Covers (m : Memory) (pending : List Nat) (e : TimedEntry) : Prop :=
  ∀ id, e.key = cacheKey id → id ∉ pending → ∀ h, historyOfText? e.value = some h → m.Tells id h

theorem Memory.Changed.covers {m m' : Memory} {cs : List Change} (h : m.Changed cs m') {pending : List Nat}
    (changed : ∀ c ∈ cs, c.orderId ∈ pending) {e : TimedEntry} (covers : m.Covers [] e) : m'.Covers pending e := by
  intro id key waiting history read
  have same : m'.orderHistory id = m.orderHistory id :=
    h.history_eq fun c hc hid => waiting (hid ▸ changed c hc)
  unfold Memory.Tells
  rw [same]
  exact covers id key List.not_mem_nil history read

/-- What tells a history may be kept under the key of its order. -/
theorem Memory.Tells.covers {m : Memory} {id : Nat} {h : List HistoryEntry} (tells : m.Tells id h)
    (proper : ∀ e ∈ h, e.createdAt.Proper) {e : TimedEntry} (key : e.key = cacheKey id) (value : e.value = historyText h)
    (pending : List Nat) : m.Covers pending e := by
  intro id' key' _ history read
  obtain rfl := cacheKey_injective (key.symm.trans key')
  rw [value] at read
  obtain rfl := eq_of_historyText proper read
  exact tells

/-- What is read of a history is known to be of the order. -/
inductive Memory.Answers (m : Memory) (id : Nat) : Except Error (List HistoryEntry) → Prop
  | known {h : List HistoryEntry} (tells : m.Tells id h) : Answers m id (.ok h)
  | unknown (none : m.orderHistory id = []) : Answers m id (.error .orderNotFound)

section Look

variable {σ κ : Type} [OrderStore σ] [HistoryCache κ] [LawfulCache κ]

/-- a look has changed nothing but the cache, which holds nothing new but the history that the store has -/
structure Glanced (id : Nat) (h : List HistoryEntry) (s s₁ : Site σ κ) : Prop where
  only : CacheOnly s s₁
  cacheTtl : s₁.cacheTtl = s.cacheTtl
  fair : Fair s₁
  holds : ∀ e, Holds s₁.cache e → Holds s.cache e ∨ (h ≠ [] ∧ e.key = cacheKey id ∧ e.value = historyText h)

/-- what a look comes to: a history that the cache holds, or the one that the store has -/
inductive Seen (id : Nat) (h : List HistoryEntry) (s : Site σ κ) : Except Error (List HistoryEntry) → Prop
  | held {e : TimedEntry} {h' : List HistoryEntry} (held : Holds s.cache e) (key : e.key = cacheKey id)
    (read : historyOfText? e.value = some h') : Seen id h s (.ok h')
  | stored (known : h ≠ []) : Seen id h s (.ok h)
  | unknown (none : h = []) : Seen id h s (.error .orderNotFound)

theorem look_run {s : Site σ κ} {id : Nat} {h : List HistoryEntry} (fair : Fair s)
    (counts : Counts κ s.cacheTtl s.clock.current) (read : OrderStore.orderHistory id s.store = (.ok h, s.store)) :
    ∃ r s₁, orderHistory id s = (outcome r, s₁) ∧ Seen id h s r ∧ Glanced id h s s₁ := by
  obtain ⟨fs, c, found, hr, holds, recalled, sure⟩ := cachedHistory_run id s
  obtain ⟨rfl, serves, a, rfl⟩ := sure fair
  unfold orderHistory
  rw [bind_run, hr]
  have faultless : Fault.OfCache ([] : List Fault) := .of_nil rfl
  cases recalled with
  | @found e history held key due told =>
    refine ⟨.ok history, _, rfl, .held held key told, ?_⟩
    exact ⟨⟨rfl, rfl, rfl, faultless⟩, rfl, ⟨rfl, serves⟩, fun e he => .inl (holds e he)⟩
  | missed =>
    -- nothing is due in the cache, so the store is asked, and what it has is put there
    obtain ⟨s₂, hr₂, only, since⟩ := recordedHistory_told (s := { s with faults := [], cache := c }) id faultless
      (congrArg Prod.snd read)
    have direct : directHistory id s.store = if h = [] then .error .orderNotFound else .ok h := by
      unfold directHistory
      rw [read]
      cases h <;> rfl
    have fair₂ : Fair s₂ := ⟨since.faults, since.cache ▸ serves⟩
    have holds₂ : ∀ e, Holds s₂.cache e → Holds s.cache e := fun e he => by
      rw [since.cache] at he
      exact holds e he
    dsimp only
    rw [bind_run, hr₂]
    dsimp only
    rw [direct]
    by_cases none : h = []
    · rw [if_pos none]
      exact ⟨.error .orderNotFound, s₂, rfl, .unknown none, ⟨only.store, only.clock, only.events, only.faults⟩,
        since.cacheTtl, fair₂, fun e he => .inl (holds₂ e he)⟩
    · rw [if_neg none]
      obtain ⟨gs, d, kept, hk, holds', sure'⟩ := keepHistory_run id h s₂
      obtain ⟨rfl, serves', done⟩ := sure' fair₂
      obtain rfl := done (by rw [since.cacheTtl, Clock.current, only.clock]; exact counts)
      dsimp only [outcome, Except.mapError]
      rw [bind_run, hk]
      refine ⟨.ok h, _, rfl, .stored none, ⟨only.store, only.clock, only.events, faultless⟩, since.cacheTtl,
        ⟨rfl, serves'⟩, fun e he => ?_⟩
      rcases holds' e he with old | rfl
      · exact .inl (holds₂ e old)
      · exact .inr ⟨none, rfl, rfl⟩

variable {m : Memory} {s s₁ : Site σ κ} {id : Nat} {h : List HistoryEntry} {r : Except Error (List HistoryEntry)}

theorem Memory.tells_of_same (same : h.map HistoryEntry.told = (m.orderHistory id).map HistoryEntry.told)
    (known : h ≠ []) : m.Tells id h :=
  ⟨same, fun gone => known (List.map_eq_nil_iff.1 (same.trans (by rw [gone]; rfl)))⟩

omit [OrderStore σ] in
/-- A look answers what the history of the store in memory is, if the store that is asked tells it. -/
theorem Seen.answers (seen : Seen id h s r) (covers : ∀ e, Holds s.cache e → m.Covers [] e)
    (same : h.map HistoryEntry.told = (m.orderHistory id).map HistoryEntry.told) : m.Answers id r := by
  cases seen with
  | held held key read => exact .known (covers _ held id key List.not_mem_nil _ read)
  | stored known => exact .known (Memory.tells_of_same same known)
  | unknown none => exact .unknown (List.map_eq_nil_iff.1 (by rw [← same, none]; rfl))

omit [OrderStore σ] in
/-- And the cache goes on telling it. -/
theorem Glanced.covers (glanced : Glanced id h s s₁) (covers : ∀ e, Holds s.cache e → m.Covers [] e)
    (proper : ∀ e ∈ h, e.createdAt.Proper)
    (same : h.map HistoryEntry.told = (m.orderHistory id).map HistoryEntry.told) :
    ∀ e, Holds s₁.cache e → m.Covers [] e := by
  intro e he
  rcases glanced.holds e he with old | ⟨known, key, value⟩
  · exact covers e old
  · exact (Memory.tells_of_same same known).covers proper key value []

end Look

/-! ## Two services in step -/

/-- The ids go with the rows. -/
theorem rest_ids {forward : Prop} {ids ids' : List Nat} {m m' : Memory} {t : Tables}
    (h : (mirror forward).rest ids m t) (h' : (mirror forward).rest ids' m' t) : ids = ids' :=
  List.map_injective_iff.2 (fun _ _ hab => Int.ofNat_inj.1 hab) (h.1.shelf.ids_rows.trans h'.1.shelf.ids_rows.symm)

variable {κ ν : Type} [HistoryCache κ] [HistoryCache ν] [LawfulCache κ] [LawfulCache ν]

structure Abreast (forward : Prop) (pending : List Nat) (s : Site Memory κ) (s' : Site Tables ν) : Prop where
  near : Near (mirror forward).time s s' ((mirror forward).rest s.store.arrivals) s s'
  fair : Fair s
  fair' : Fair s'
  counts : ∀ n, Counts κ s.cacheTtl (s.clock.readings n)
  counts' : ∀ n, Counts ν s'.cacheTtl (s'.clock.readings n)
  covers : ∀ e, Holds s.cache e → s.store.Covers pending e
  covers' : forward → ∀ e, Holds s'.cache e → s.store.Covers pending e

variable {forward : Prop}

namespace Abreast

variable {pending : List Nat} {s s₁ : Site Memory κ} {s' s₁' : Site Tables ν}

/-- Work that does not ask the caches. -/
theorem worked (h : Abreast forward pending s s') {after : List Nat}
    (near : Near (mirror forward).time s s' ((mirror forward).rest s₁.store.arrivals) s₁ s₁')
    (covers : ∀ e, s.store.Covers pending e → s₁.store.Covers after e) : Abreast forward after s₁ s₁' where
  near := near.anew
  fair := ⟨near.since.faults.trans h.fair.faultless, near.since.cache ▸ h.fair.serves⟩
  fair' := ⟨near.since'.faults.trans h.fair'.faultless, near.since'.cache ▸ h.fair'.serves⟩
  counts n := by rw [near.since.cacheTtl, near.since.readings]; exact h.counts n
  counts' n := by rw [near.since'.cacheTtl, near.since'.readings]; exact h.counts' n
  covers e he := covers e (h.covers e (near.since.cache ▸ he))
  covers' hf e he := covers e (h.covers' hf e (near.since'.cache ▸ he))

theorem unchanged (h : Abreast forward pending s s') {ids : List Nat}
    (near : Near (mirror forward).time s s' ((mirror forward).rest ids) s₁ s₁') (ids_eq : ids = s.store.arrivals)
    (store : s₁.store = s.store) : Abreast forward pending s₁ s₁' :=
  h.worked (by rw [store, ← ids_eq]; exact near) fun _ covers => store.symm ▸ covers

/-- Looks at a history. -/
theorem glanced (h : Abreast forward [] s s') {id : Nat} {l l' : List HistoryEntry} (left : Glanced id l s s₁)
    (right : Glanced id l' s' s₁') (covers : ∀ e, Holds s₁.cache e → s.store.Covers [] e)
    (covers' : forward → ∀ e, Holds s₁'.cache e → s.store.Covers [] e) : Abreast forward [] s₁ s₁' where
  near := by
    refine ⟨?_, ?_, fun n => ?_, left.only.faults, right.only.faults, .refl _, .refl _, ?_⟩
    · rw [left.only.clock, right.only.clock]; exact h.near.clock
    · rw [left.only.events, right.only.events]; exact h.near.events
    · rw [left.only.clock]; exact h.near.timely n
    · rw [left.only.store, right.only.store]; exact h.near.stores
  fair := left.fair
  fair' := right.fair
  counts n := by rw [left.cacheTtl, left.only.clock]; exact h.counts n
  counts' n := by rw [right.cacheTtl, right.only.clock]; exact h.counts' n
  covers e he := left.only.store.symm ▸ covers e he
  covers' hf e he := left.only.store.symm ▸ covers' hf e he

end Abreast

theorem abreast_accepted {o : Order} (stores : o.Storable) (new : o.status = .expects) :
    Together (Abreast forward []) (storeAccepted o : Act Memory κ Unit) (storeAccepted o : Act Tables ν Unit)
      (fun _ _ => Abreast forward [o.id]) (Abreast forward []) := by
  intro s s' h
  obtain ⟨r, r', s₁, s₁', hr, hr', ends⟩ := (mirror_sound forward).storeAccepted_rest stores s s' h.near
  obtain ⟨⟨-, undone⟩, change⟩ := storeAccepted_undone new s
  rw [hr] at undone change
  refine ⟨r, r', s₁, s₁', hr, hr', ?_⟩
  cases ends with
  | ok near =>
    have changes := change () rfl
    refine .ok (h.worked (by rw [arrivals_changes changes]; exact near) fun e => changes.changed.covers fun c hc => ?_)
    exact List.mem_singleton.1 hc ▸ List.mem_singleton_self _
  | error near => exact .error (h.unchanged near rfl (undone nofun))

theorem abreast_reclaimed {id : Nat} (fits : id ≤ maxRowId) :
    Together (Abreast forward []) (storeReclaimed id : Act Memory κ Unit) (storeReclaimed id : Act Tables ν Unit)
      (fun _ _ => Abreast forward [id]) (Abreast forward []) := by
  intro s s' h
  obtain ⟨r, r', s₁, s₁', hr, hr', ends⟩ := (mirror_sound forward).storeReclaimed_rest fits s s' h.near
  obtain ⟨⟨-, undone⟩, change⟩ := storeReclaimed_undone id s
  rw [hr] at undone change
  refine ⟨r, r', s₁, s₁', hr, hr', ?_⟩
  cases ends with
  | ok near =>
    obtain ⟨now, changes⟩ := change () rfl
    refine .ok (h.worked (by rw [arrivals_changes changes]; exact near) fun e => changes.changed.covers fun c hc => ?_)
    exact List.mem_singleton.1 hc ▸ List.mem_singleton_self _
  | error near => exact .error (h.unchanged near rfl (undone nofun))

theorem abreast_processed {userId : Nat} {action : Action} {now : Instant} {ids : List Nat}
    (fits : ∀ id ∈ ids, id ≤ maxRowId) (time : (mirror forward).time now) :
    Together (Abreast forward []) (transaction (ids.mapM (applyInBatch userId action now)) : Act Memory κ _)
      (transaction (ids.mapM (applyInBatch userId action now)) : Act Tables ν _)
      (fun x x' s s' => x' = x ∧ Abreast forward (doneIds x) s s') (Abreast forward []) := by
  intro s s' h
  obtain ⟨r, r', s₁, s₁', hr, hr', ends⟩ := (mirror_sound forward).batch_rest fits time s s' h.near
  obtain ⟨⟨-, undone⟩, change⟩ := batch_undone userId action now ids s
  rw [hr] at undone change
  refine ⟨r, r', s₁, s₁', hr, hr', ?_⟩
  cases ends with
  | ok near =>
    obtain ⟨rfl, near⟩ := near
    have changed := change _ rfl
    refine .ok ⟨rfl, h.worked (by rw [arrivals_batch changed]; exact near) fun e => changed.covers fun c hc => ?_⟩
    obtain ⟨id, done, rfl⟩ := List.mem_map.1 hc
    exact done
  | error near => exact .error (h.unchanged near rfl (undone nofun))

theorem abreast_dropped {id : Nat} {pending : List Nat} :
    Together (Abreast forward (id :: pending)) (dropHistory id : Act Memory κ Unit) (dropHistory id : Act Tables ν Unit)
      (fun _ _ => Abreast forward pending) fun _ _ => False := by
  intro s s' h
  obtain ⟨fs, c, r, hr, holds, sure⟩ := dropHistory_run id s
  obtain ⟨rfl, rfl, serves, gone⟩ := sure h.fair
  obtain ⟨fs', c', r', hr', holds', sure'⟩ := dropHistory_run id s'
  obtain ⟨rfl, rfl, serves', gone'⟩ := sure' h.fair'
  have faultless : Fault.OfCache ([] : List Fault) := .of_nil rfl
  have dropped : ∀ {e : TimedEntry}, e.key ≠ cacheKey id → s.store.Covers (id :: pending) e →
      s.store.Covers pending e := by
    intro e other covers id' key waiting
    refine covers id' key fun mem => ?_
    rcases List.mem_cons.1 mem with rfl | mem
    · exact other key
    · exact waiting mem
  refine ⟨.ok (), .ok (), _, _, hr, hr', .ok ?_⟩
  exact ⟨⟨h.near.clock, h.near.events, h.near.timely, faultless, faultless, .refl _, .refl _, h.near.stores⟩,
    ⟨rfl, serves⟩, ⟨rfl, serves'⟩, h.counts, h.counts', fun e he => dropped (gone e he) (h.covers e (holds e he)),
    fun hf e he => dropped (gone' e he) (h.covers' hf e (holds' e he))⟩

/-- A look tells the same on both sides, if the clock of the database never goes back. -/
theorem Abreast.look {s : Site Memory κ} {s' : Site Tables ν} (h : Abreast forward [] s s') {id : Nat}
    (fits : id ≤ maxRowId) :
    ∃ r r' s₁ s₁', orderHistory id s = (outcome r, s₁) ∧ orderHistory id s' = (outcome r', s₁') ∧
      s.store.Answers id r ∧ (forward → s.store.Answers id r') ∧ Abreast forward [] s₁ s₁' := by
  have read := (mirror_sound forward).orderHistory h.near.stores fits
  generalize hx : OrderStore.orderHistory id s'.store = x at read
  obtain ⟨_, t⟩ := x
  cases read with
  | @ok _ history _ _ both =>
    obtain ⟨retold, -, rfl⟩ := both
    have proper : ∀ e ∈ s.store.orderHistory id, e.createdAt.Proper := fun e he =>
      h.near.stores.1.log.proper e (List.mem_filter.1 he).1
    have stored : OrderStore.orderHistory id s.store = (.ok (s.store.orderHistory id), s.store) := rfl
    obtain ⟨r, s₁, hr, seen, glanced⟩ := look_run h.fair (h.counts _) stored
    obtain ⟨r', s₁', hr', seen', glanced'⟩ := look_run h.fair' (h.counts' _) hx
    refine ⟨r, r', s₁, s₁', hr, hr', seen.answers h.covers rfl, fun hf => ?_, ?_⟩
    · exact seen'.answers (h.covers' hf) (told_of_retold (retold hf))
    · exact h.glanced glanced glanced' (glanced.covers h.covers proper rfl) fun hf =>
        glanced'.covers (h.covers' hf) (proper_of_retold (retold hf)) (told_of_retold (retold hf))

/-- Whatever the service does, the two stay in step. -/
theorem abreast_careful (forward : Prop) :
    Careful (mirror forward) fun pending (s : Site Memory κ) (s' : Site Tables ν) => Abreast forward pending s s' where
  sound := mirror_sound forward
  near h := ⟨_, h.near⟩
  idle h near := by
    obtain ⟨rest, store, tables⟩ := near.stores
    exact h.unchanged (near.mono fun _ _ => And.left) (rest_ids rest (tables ▸ h.near.stores)) store
  accepted := abreast_accepted
  reclaimed := abreast_reclaimed
  processed := abreast_processed
  dropped := abreast_dropped
  looked fits h := by
    obtain ⟨r, r', s₁, s₁', hr, hr', -, -, after⟩ := h.look fits
    rw [hr, hr']
    exact after

end PickupPoint
