/-
How old an answer can be that the cache gives.

The cache may miss any request, and so keep a history after the order has changed. All that it holds was stored when it
was put there, and is due no longer than the service keeps a history (`held_of_run`). So a history that is answered is
the one that was stored at some time, either now or less than that long ago, and as histories only grow it is the first
part of the one that is stored now (`history_recent`).
-/
import Mathlib.Data.List.Induction
import PickupPoint.Proofs.Calls

namespace PickupPoint

open LawfulCache

/-! ## What the cache holds in a session -/

section Held

variable {κ : Type} [HistoryCache κ] [LawfulCache κ]

/-- the entry was put into the cache when its history was stored, at some time of the session -/
def PutWhenStored (s : Site Memory κ) (turns : List Turn) (e : TimedEntry) : Prop :=
  ∃ past, past <+: turns ∧ ∃ id, (Turn.run s past).store.orderHistory id ≠ [] ∧
    e = keptEntry id ((Turn.run s past).store.orderHistory id) (Turn.run s past)

theorem PutWhenStored.later {s : Site Memory κ} {turns : List Turn} {e : TimedEntry} (h : PutWhenStored s turns e)
    (t : Turn) : PutWhenStored s (turns ++ [t]) e := by
  obtain ⟨past, hpast, rest⟩ := h
  exact ⟨past, hpast.trans (List.prefix_append turns [t]), rest⟩

/-- A turn puts nothing else there, whatever faults are set. -/
theorem held_of_turn (s : Site Memory κ) (t : Turn) {e : TimedEntry} (he : Holds (t.step s).cache e) :
    Holds s.cache e ∨ ∃ id, s.store.orderHistory id ≠ [] ∧ e = keptEntry id (s.store.orderHistory id) s := by
  cases t with
  | wait => exact .inl he
  | call c =>
    rcases hc : (Progress.start c).reads? with _ | id
    · exact .inl ((course_ends hc s).holds e he)
    · obtain rfl : c = .orderHistory id := by
        cases c <;> cases hc
        rfl
      change Holds ((Call.orderHistory id).perform s).2.cache e at he
      rw [perform_orderHistory] at he
      exact ((orderHistory_looked id s).holds e he).imp_right fun h => ⟨id, h⟩

theorem held_of_run {s : Site Memory κ} (nothing : ∀ e, ¬ Holds s.cache e) (turns : List Turn) {e : TimedEntry}
    (he : Holds (Turn.run s turns).cache e) : PutWhenStored s turns e := by
  induction turns using List.reverseRecOn generalizing e with
  | nil => exact absurd he (nothing e)
  | append_singleton turns t ih =>
    rw [Turn.run_concat] at he
    rcases held_of_turn _ t he with old | ⟨id, some, rfl⟩
    · exact (ih old).later t
    · exact ⟨turns, List.prefix_append turns [t], id, some, rfl⟩

end Held

/-! ## How old an answer is -/

/-- the history of an order as it was stored in the past, no longer than `ttl` seconds ago -/
structure RecentlyStored (ttl id : Nat) (h : List HistoryEntry) (past now : Site Memory TimedCache) : Prop where
  stored : past.store.orderHistory id = h
  before : past.clock.current ≤ now.clock.current
  recent : past.clock.current = now.clock.current ∨ now.clock.current < past.clock.current.later ttl

theorem Instant.le_refl (t : Instant) : t ≤ t := by
  rintro (h | ⟨_, h⟩) <;> omega

/-- **Answers are recent.** Whatever faults are set, of the cache and of all else, a history that is answered in a
session was stored at some time, either now or less than the time ago that the service keeps histories in the cache. It
is the first part of the history that is stored now. -/
theorem history_recent {s : Site Memory TimedCache} (fresh : s.store = .empty ∧ s.cache = .empty)
    (proper : ∀ n, (s.clock.readings n).Proper)
    (forward : ∀ m n, m ≤ n → s.clock.readings m ≤ s.clock.readings n) (turns : List Turn) (id : Nat)
    {h : List HistoryEntry} (answer : (orderHistory id (Turn.run s turns)).1 = .ok h) :
    (∃ past, past <+: turns ∧ RecentlyStored s.cacheTtl id h (Turn.run s past) (Turn.run s turns)) ∧
      h ≠ [] ∧ h <+: (Turn.run s turns).store.orderHistory id := by
  have nothing : ∀ e, ¬ Holds s.cache e := by
    intro e he
    rw [fresh.2] at he
    exact absurd he List.not_mem_nil
  rcases (orderHistory_looked id (Turn.run s turns)).answer h answer with ⟨rfl, some⟩ | ⟨e, held, key, due, read⟩
  · exact ⟨⟨turns, List.prefix_refl turns, rfl, Instant.le_refl _, .inl rfl⟩, some, List.prefix_refl _⟩
  -- the cache has answered what was stored after `past`; times and histories have only grown in `more`
  obtain ⟨past, ⟨more, rfl⟩, id', some, rfl⟩ := held_of_run nothing turns held
  obtain rfl : id' = id := cacheKey_injective key
  obtain rfl := Turn.run_decodes fresh.1 proper past id' read
  have kept := Turn.run_dated past s
  have since := Turn.run_dated more (Turn.run s past)
  rw [← Turn.run_append] at since
  refine ⟨⟨past, List.prefix_append past more, rfl, ?_, .inr ?_⟩, some, ?_⟩
  · show (Turn.run s past).clock.readings _ ≤ (Turn.run s (past ++ more)).clock.readings _
    rw [since.readings, kept.readings]
    exact forward _ _ since.taken
  · rw [← kept.cacheTtl]
    exact due
  · obtain ⟨cs, changed⟩ := Turn.run_grows more (Turn.run s past)
    rw [Turn.run_append]
    exact changed.history_prefix id'

/-! ## A clock that ticks -/

theorem Clock.ticking_proper (start : Instant) (n : Nat) : ((ticking start).readings n).Proper :=
  .inl (Nat.mod_lt _ (by decide))

theorem Clock.ticking_forward (start : Instant) {m n : Nat} (h : m ≤ n) :
    (ticking start).readings m ≤ (ticking start).readings n := by
  have nanos : start.nano + m * 1000 ≤ start.nano + n * 1000 := by omega
  have seconds := @Nat.div_le_div_right _ _ Instant.nanosPerSecond nanos
  rintro (before | ⟨same, before⟩)
  · simp only [ticking] at before
    omega
  · simp only [ticking] at same before
    have early := Nat.div_add_mod (start.nano + m * 1000) Instant.nanosPerSecond
    have late := Nat.div_add_mod (start.nano + n * 1000) Instant.nanosPerSecond
    rw [show (start.nano + n * 1000) / Instant.nanosPerSecond = (start.nano + m * 1000) / Instant.nanosPerSecond by
      omega] at late
    omega

/-- an empty shelf, where the second request to drop a history from the cache will be missed -/
def forgetful : Site Memory TimedCache where
  clock := .ticking ⟨0, 0⟩
  eventIds := 0
  store := .empty
  cache := .empty
  cacheTtl := 60
  metrics := .empty
  faults := [⟨.cacheDelete, false, 2, some 1, .error (.internal "cache is away"), 0⟩]

/-- a parcel that is collected after its history was read -/
def collected : List Turn :=
  [.call (.accept lightParcel), .call (.orderHistory 1), .wait, .call (.process 7 .issue [1]), .wait]

/-- The cache still tells that the parcel is expected, as it was. -/
theorem history_recent_of_collected :
    ∃ h, (orderHistory 1 (Turn.run forgetful collected)).1 = .ok h ∧ h.map (·.status) = [.expects] ∧
      ((Turn.run forgetful collected).store.orderHistory 1).map (·.status) = [.expects, .accepted] ∧
      (∃ past, past <+: collected ∧ RecentlyStored 60 1 h (Turn.run forgetful past) (Turn.run forgetful collected)) ∧
      h ≠ [] ∧ h <+: (Turn.run forgetful collected).store.orderHistory 1 := by
  have told : (orderHistory 1 (Turn.run forgetful collected)).1.toOption.map (·.map (·.status)) = some [.expects] := by
    decide +kernel
  rcases hr : (orderHistory 1 (Turn.run forgetful collected)).1 with halt | h <;> rw [hr] at told
  · cases told
  · exact ⟨h, rfl, Option.some.inj told, by decide +kernel,
      history_recent ⟨rfl, rfl⟩ (Clock.ticking_proper _) (fun _ _ => Clock.ticking_forward _) collected 1 hr⟩

/-- a service that keeps no history for any time -/
def unkept : Site Memory TimedCache := { forgetful with cacheTtl := 0, faults := [] }

/-- What it answers was stored at the very time, and so not less than no time ago. -/
theorem stored_no_time_ago :
    ∃ h, (orderHistory 1 (Turn.run unkept [.call (.accept lightParcel)])).1 = .ok h ∧
      ¬ ∃ t : Instant, t ≤ (Turn.run unkept [.call (.accept lightParcel)]).clock.current ∧
        (Turn.run unkept [.call (.accept lightParcel)]).clock.current < t.later unkept.cacheTtl := by
  have told : (orderHistory 1 (Turn.run unkept [.call (.accept lightParcel)])).1.toBool = true := by decide +kernel
  rcases hr : (orderHistory 1 (Turn.run unkept [.call (.accept lightParcel)])).1 with halt | h <;> rw [hr] at told
  · cases told
  · refine ⟨h, rfl, fun ⟨t, before, after⟩ => before ?_⟩
    have same : t.later unkept.cacheTtl = t := by simp [Instant.later, unkept]
    exact same ▸ after

end PickupPoint
