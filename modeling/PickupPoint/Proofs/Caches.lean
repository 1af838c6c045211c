/-
What caches hold.

A lawful cache answers only what it holds and what is still due, and holds only what was set under a key and not
deleted since; it may forget at any time. The cache in memory and the one on a server are such. What the service asks
of a cache is done or, where a fault stands in the way, is not (`askCache_run`).

The history of each order has a key of its own (`cacheKey_injective`).
-/
import PickupPoint.Cache.KeyValue
import PickupPoint.Cache.Timed
import PickupPoint.Proofs.Digits
import PickupPoint.Proofs.Laws
import PickupPoint.Service.History

namespace PickupPoint

/-- the time some seconds later -/
def Instant.later (t : Instant) (seconds : Nat) : Instant := ⟨t.second + seconds, t.nano⟩

theorem Instant.plus_ofSeconds (t : Instant) (seconds : Nat) : t.plus (.ofSeconds seconds) = t.later seconds := by
  have fits : t.nano % nanosPerSecond + (Duration.ofSeconds seconds).nano < nanosPerSecond :=
    Nat.mod_lt _ (by decide)
  rw [plus, if_pos fits]
  rfl

class LawfulCache (κ : Type) [HistoryCache κ] where
  Holds : κ → TimedEntry → Prop
  /-- no command is refused -/
  Serves : κ → Prop
  /-- seconds that an entry lasts which is set for so many -/
  lifetime : Nat → Nat
  /-- the end of an entry set now for so many seconds can be counted -/
  Counts : Nat → Instant → Prop
  get_holds {key now} {c : κ} {e} : Holds (HistoryCache.get key now c).2 e → Holds c e
  get_answer {key now} {c : κ} {v} : (HistoryCache.get key now c).1 = .ok (some v) →
    ∃ e, Holds c e ∧ e.key = key ∧ e.value = v ∧ now < e.expiresAt
  get_serves {key now} {c : κ} : Serves c →
    (∃ a, (HistoryCache.get key now c).1 = .ok a) ∧ Serves (HistoryCache.get key now c).2
  set_holds {key value ttl now} {c : κ} {e} : Holds (HistoryCache.set key value ttl now c).2 e →
    Holds c e ∨ e = ⟨key, value, now.later (lifetime ttl)⟩
  set_counts {key value ttl now} {c : κ} {text} : Counts ttl now →
    (HistoryCache.set key value ttl now c).1 ≠ .error (.panic text)
  set_serves {key value ttl now} {c : κ} : Serves c → Serves (HistoryCache.set key value ttl now c).2
  delete_holds {key now} {c : κ} {e} : Holds (HistoryCache.delete key now c).2 e →
    Holds c e ∧ ((HistoryCache.delete key now c).1 = .ok () → e.key ≠ key)
  delete_serves {key now} {c : κ} : Serves c →
    (HistoryCache.delete key now c).1 = .ok () ∧ Serves (HistoryCache.delete key now c).2

namespace TimedCache

theorem set_eq (key value : String) (ttl : Nat) (now : Instant) (c : TimedCache) :
    set key value ttl now c =
      if lastSecond < now.second + ttl then (.error (.panic overflowText), c)
      else (.ok (), ⟨⟨key, value, now.later ttl⟩ :: (c.erase key).entries⟩) := by
  simp only [set, setFor, Instant.plus_ofSeconds]
  rfl

theorem mem_erase {c : TimedCache} {key : String} {e : TimedEntry} (h : e ∈ (c.erase key).entries) :
    e ∈ c.entries ∧ e.key ≠ key := by
  simpa [erase] using h

instance : LawfulCache TimedCache where
  Holds c e := e ∈ c.entries
  Serves _ := True
  lifetime ttl := ttl
  Counts ttl now := now.second + ttl ≤ lastSecond
  get_holds {key now c e} h := by
    change e ∈ (get key now c).2.entries at h
    unfold get at h
    split at h
    · split at h
      · exact h
      · exact (mem_erase h).1
    · exact h
  get_answer {key now c v} h := by
    change (get key now c).1 = _ at h
    unfold get at h
    split at h
    · rename_i e he
      split at h
      · rename_i due
        cases h
        have found := List.find?_some he
        exact ⟨e, List.mem_of_find?_eq_some he, by simpa using found, rfl, due⟩
      · cases h
    · cases h
  get_serves {key now c} _ := by
    refine ⟨?_, trivial⟩
    show ∃ a, (get key now c).1 = _
    unfold get
    split
    · split <;> exact ⟨_, rfl⟩
    · exact ⟨_, rfl⟩
  set_holds {key value ttl now c e} h := by
    change e ∈ (set key value ttl now c).2.entries at h
    rw [set_eq] at h
    split at h
    · exact .inl h
    · rcases List.mem_cons.1 h with rfl | h
      · exact .inr rfl
      · exact .inl (mem_erase h).1
  set_counts {key value ttl now c text} h := by
    show (set key value ttl now c).1 ≠ _
    rw [set_eq, if_neg (Int.not_lt.2 h)]
    nofun
  set_serves _ := trivial
  delete_holds h := ⟨(mem_erase h).1, fun _ => (mem_erase h).2⟩
  delete_serves _ := ⟨rfl, trivial⟩

end TimedCache

namespace CacheServer

/-- what is stored on the server, as any cache could hold it -/
def Stores (s : CacheServer) (e : TimedEntry) : Prop :=
  ∃ x ∈ s.entries, x.key = e.key ∧ x.value = e.value ∧ x.expiresAt = e.expiresAt

theorem stores_erase {s : CacheServer} {key : String} {e : TimedEntry} (h : (s.erase key).Stores e) :
    s.Stores e ∧ e.key ≠ key := by
  obtain ⟨x, hx, hkey, hrest⟩ := h
  have kept : x ∈ s.entries ∧ x.key ≠ key := by simpa [erase] using hx
  exact ⟨⟨x, kept.1, hkey, hrest⟩, hkey ▸ kept.2⟩

instance : LawfulCache CacheServer where
  Holds := Stores
  Serves s := s.refused = []
  lifetime ttl := max ttl 1
  Counts _ _ := True
  get_holds {key now s e} h := by
    change (get key now s).2.Stores e at h
    unfold get at h
    split at h <;> exact h
  get_answer {key now s v} h := by
    change (get key now s).1 = _ at h
    unfold get at h
    split at h
    · cases h
    · simp only [Except.ok.injEq, Option.map_eq_some_iff] at h
      obtain ⟨x, hx, rfl⟩ := h
      have live : x ∈ s.entries ∧ now < x.expiresAt := by
        simpa [CacheServer.live] using List.mem_of_find?_eq_some hx
      have found := List.find?_some hx
      exact ⟨⟨x.key, x.value, x.expiresAt⟩, ⟨x, live.1, rfl, rfl, rfl⟩, by simpa using found, rfl, live.2⟩
  get_serves {key now s} h := by
    show (∃ a, (get key now s).1 = _) ∧ (get key now s).2.refused = []
    rw [get, if_neg (by rw [h]; nofun)]
    exact ⟨⟨_, rfl⟩, h⟩
  set_holds {key value ttl now s e} h := by
    change (set key value ttl now s).2.Stores e at h
    unfold set at h
    dsimp only at h
    split at h
    · exact .inl h
    · obtain ⟨x, hx, hkey, hvalue, htime⟩ := h
      rcases List.mem_cons.1 hx with rfl | hx
      · right
        obtain ⟨key', value', expiresAt⟩ := e
        cases hkey; cases hvalue; cases htime
        rfl
      · exact .inl (stores_erase ⟨x, hx, hkey, hvalue, htime⟩).1
  set_counts {key value ttl now s text} _ := by
    show (set key value ttl now s).1 ≠ _
    unfold set
    dsimp only
    split <;> nofun
  set_serves {key value ttl now s} h := by
    show (set key value ttl now s).2.refused = []
    unfold set
    dsimp only
    split <;> exact h
  delete_holds {key now s e} h := by
    change (delete key s).2.Stores e at h
    show s.Stores e ∧ ((delete key s).1 = _ → _)
    unfold delete at h ⊢
    split at h
    · exact ⟨h, by simp_all⟩
    · exact ⟨(stores_erase h).1, fun _ => (stores_erase h).2⟩
  delete_serves {key now s} h := by
    show (delete key s).1 = _ ∧ (delete key s).2.refused = []
    rw [delete, if_neg (by rw [h]; nofun)]
    exact ⟨rfl, h⟩

end CacheServer

/-! ## Keys -/

theorem natDigits_injective : Function.Injective Text.natDigits := fun m n h => by
  rw [← digitsValue_natDigits m, ← digitsValue_natDigits n, h]

theorem cacheKey_injective : Function.Injective cacheKey := fun m n h => by
  have written : ∀ n, (cacheKey n).toList = Text.natDigits n := fun n => by
    simp [cacheKey, Text.natDigits]
  exact natDigits_injective (by rw [← written m, ← written n, h])

/-! ## Asking -/

open Act

variable {σ κ α : Type}

/-- what comes of asking the cache, and the cache after it: a fault may stand in the way -/
inductive Answered (op : Instant → CacheAccess κ α) (s : Site σ κ) : Except Halt (Option α) → κ → Prop
  | done : Answered op s (heard (op s.clock.current s.cache).1) (op s.clock.current s.cache).2
  | missed (faulty : s.faults ≠ []) : Answered op s (.ok none) s.cache
  | panicked (faulty : s.faults ≠ []) (text : String) : Answered op s (.error (.panic text)) s.cache

theorem askCache_run (p : Point) (op : Instant → CacheAccess κ α) (s : Site σ κ) :
    ∃ fs r c, askCache p op s = (r, { s with faults := fs, cache := c }) ∧ (s.faults = [] → fs = []) ∧
      Answered op s r c := by
  have faulty : ∀ {e}, (Fault.arrive p false s.faults).1 = some e → s.faults ≠ [] := by
    intro e he hs; rw [hs] at he; cases he
  have met : s.faults = [] → (Fault.arrive p false s.faults).2 = [] := by
    intro hs; rw [hs]; rfl
  unfold askCache
  rw [bind_run, attempt_run, arrive_run]
  rcases hm : (Fault.arrive p false s.faults).1 with _ | e | text | _
  · exact ⟨_, _, _, onCache_run op _, met, .done⟩
  · exact ⟨_, _, _, rfl, met, .missed (faulty hm)⟩
  · exact ⟨_, _, _, rfl, met, .panicked (faulty hm) text⟩
  · exact ⟨_, _, _, onCache_run op _, met, .done⟩

end PickupPoint
