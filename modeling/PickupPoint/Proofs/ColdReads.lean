/-
Looks at a history under every configuration.

Without a cache server histories are kept in memory, for as many seconds as the environment says: any number of 64 bits
(`ofEnvironment_span`). The service takes no notice of a cache that fails. The cache in memory, though, does not fail
when the end of an entry cannot be counted, it panics; so a look that has to ask the store panics too, after the store
has answered, and every other look answers (`Truthful.look`, `reads_answered_iff`). A session shows that it happens.
-/
import PickupPoint.Config
import PickupPoint.Proofs.Coherence
import PickupPoint.Proofs.Utf8

namespace PickupPoint

open Act LawfulCache Text

/-! ## How long histories are kept -/

/-- an environment that says just where the orders are and how long histories are kept -/
def spanEnvironment (seconds : Nat) : Environment := fun key =>
  if key = "DATABASE_URL" then some []
  else if key = "CACHE_TTL_SECS" then some (ascii (natDigits seconds))
  else none

/-- Every number of 64 bits can be configured. -/
theorem ofEnvironment_span {seconds : Nat} (h : seconds ≤ maxOfBits 64) :
    ∃ cfg, Config.ofEnvironment (spanEnvironment seconds) = .ok cfg ∧ cfg.redisUrl = none ∧ cfg.cacheTtl = seconds := by
  have written : Config.text? (spanEnvironment seconds) "CACHE_TTL_SECS" = some (String.ofList (natDigits seconds)) := by
    have plain : ∀ c ∈ natDigits seconds, c.toNat < 0x80 := fun c hc => by
      have digit := digit?_of_mem hc
      unfold digit? at digit
      split at digit
      · rename_i range
        exact Nat.lt_of_le_of_lt (UInt32.le_iff_toNat_le.1 range.2) (by decide)
      · cases digit
    have decoded : decode (ascii (natDigits seconds)) = runes (String.ofList (natDigits seconds)) := by
      rw [decode_ascii plain, runes, String.toList_ofList]
    show intact? (decode (ascii (natDigits seconds))) = _
    rw [decoded, intact?_runes]
  have read : Config.number (spanEnvironment seconds) "CACHE_TTL_SECS" (maxOfBits 64) 300 = .ok seconds := by
    rw [Config.number, written]
    show (readNat _ _).mapError _ = _
    rw [readNat_eq_ok_iff.2 ⟨h, denotes_natDigits seconds⟩]
    rfl
  have url : Config.text? (spanEnvironment seconds) "DATABASE_URL" = some "" := rfl
  refine ⟨⟨"", "0.0.0.0", 8080, none, seconds, 10⟩, ?_, rfl, rfl⟩
  unfold Config.ofEnvironment
  rw [url, read]
  rfl

/-! ## Looks -/

variable {s : Site Memory TimedCache} {id : Nat}

/-- The cache has no answer to a look, and the end of what would be put there now cannot be counted. -/
def Overflows (id : Nat) (s : Site Memory TimedCache) : Prop :=
  (cachedHistory id s).1 = .ok none ∧ TimedCache.lastSecond < s.clock.current.second + s.cacheTtl

instance (id : Nat) (s : Site Memory TimedCache) : Decidable (Overflows id s) :=
  inferInstanceAs (Decidable (_ ∧ _))

theorem keepHistory_timed (id : Nat) (history : List HistoryEntry) (h : s.faults = []) :
    (keepHistory id history s).1 =
      if TimedCache.lastSecond < s.clock.current.second + s.cacheTtl then .error (.panic TimedCache.overflowText)
      else .ok () := by
  obtain ⟨fs, r, c, hr, -, answered⟩ :=
    askCache_run .cacheSet (HistoryCache.set (cacheKey id) (historyText history) s.cacheTtl) s
  have run : (keepHistory id history s).1 = r.map fun _ => () := by
    unfold keepHistory
    rw [bind_run]
    show ((askCache .cacheSet (HistoryCache.set (cacheKey id) (historyText history) s.cacheTtl) >>=
      fun _ => pure () : Act Memory TimedCache Unit) s).1 = _
    rw [bind_run, hr]
    cases r <;> rfl
  rw [run]
  cases answered with
  | missed faulty => exact absurd h faulty
  | panicked faulty => exact absurd h faulty
  | done =>
    show (heard (TimedCache.set _ _ _ _ _).1).map _ = _
    rw [TimedCache.set_eq]
    split <;> rfl

/-- A look answers the history that is stored, unless it is to be kept for longer than can be counted. -/
theorem Truthful.look (h : Truthful s) (begun : s.store.orderHistory id ≠ [])
    (decodes : ∀ {h}, historyOfText? (historyText (s.store.orderHistory id)) = some h → h = s.store.orderHistory id) :
    (orderHistory id s).1 =
      if Overflows id s then .error (.panic TimedCache.overflowText) else .ok (s.store.orderHistory id) := by
  obtain ⟨fs, c, r, hr, -, recalled, fair⟩ := cachedHistory_run id s
  obtain ⟨rfl, -, answers⟩ := fair h.fair
  unfold orderHistory
  rw [bind_run, hr]
  cases recalled with
  | panicked text => nomatch answers
  | @found e history held key _ read =>
    obtain ⟨-, value⟩ := h.held e id held key
    have warm : ¬ Overflows id s := by
      rintro ⟨cold, -⟩
      rw [hr] at cold
      cases cold
    rw [if_neg warm, ← decodes (value ▸ read)]
    rfl
  | missed =>
    obtain ⟨gs, m, r', hread, -, sure⟩ := recordedHistory_run id { s with faults := [], cache := c }
    obtain ⟨rfl, hknown⟩ := sure rfl
    have found : r' = .ok (s.store.orderHistory id) := hknown.trans (if_neg begun)
    have kept := keepHistory_timed id (s := { s with faults := [], cache := c, metrics := m })
      (s.store.orderHistory id) rfl
    dsimp only
    rw [bind_run, hread, found]
    dsimp only
    rw [bind_run]
    rcases hk : keepHistory id (s.store.orderHistory id) { s with faults := [], cache := c, metrics := m } with ⟨r, s'⟩
    rw [hk] at kept
    obtain rfl : r = _ := kept
    by_cases late : TimedCache.lastSecond < s.clock.current.second + s.cacheTtl
    · have overflows : Overflows id s := ⟨congrArg Prod.fst hr, late⟩
      rw [if_pos late, if_pos overflows]
    · have fits : ¬ Overflows id s := fun overflows => late overflows.2
      rw [if_neg late, if_neg fits]
      rfl

/-! ## Configurations -/

/-- the service as it starts in an environment that names no cache server -/
structure Started (env : Environment) (s : Site Memory TimedCache) : Prop where
  configured : ∃ cfg, Config.ofEnvironment env = .ok cfg ∧ cfg.redisUrl = none ∧ s.cacheTtl = cfg.cacheTtl
  fresh : Fresh .empty s

/-- **Which looks answer.** However the service without a cache server is configured, and whatever was done since it
started: a look at an order that has a history changes no order, and answers this history unless the cache does not
have it and cannot count the end of what is put there; then it panics. -/
theorem reads_answered_iff {env : Environment} {s : Site Memory TimedCache} (started : Started env s)
    (turns : List Turn) (id : Nat) (begun : (Turn.run s turns).store.orderHistory id ≠ []) :
    (orderHistory id (Turn.run s turns)).2.store = (Turn.run s turns).store ∧
      ((orderHistory id (Turn.run s turns)).1 = .ok ((Turn.run s turns).store.orderHistory id) ↔
        ¬ Overflows id (Turn.run s turns)) ∧
      (Overflows id (Turn.run s turns) →
        (orderHistory id (Turn.run s turns)).1 = .error (.panic TimedCache.overflowText)) := by
  have fresh := started.fresh
  have truthful : Truthful (Turn.run s turns) := (fresh.truthful (fun _ => List.not_mem_nil) trivial).run turns
  have look := truthful.look begun (Turn.run_decodes fresh.store fresh.proper turns id)
  refine ⟨(orderHistory_looked id _).store, ?_, fun overflows => look.trans (if_pos overflows)⟩
  rw [look]
  constructor
  · intro answered overflows
    rw [if_pos overflows] at answered
    cases answered
  · intro fits
    exact if_neg fits

/-- an empty shelf whose histories are to be kept for so many seconds -/
def keepingFor (seconds : Nat) : Site Memory TimedCache := { opening .empty with cacheTtl := seconds }

theorem keepingFor_started {seconds : Nat} (h : seconds ≤ maxOfBits 64) :
    Started (spanEnvironment seconds) (keepingFor seconds) := by
  obtain ⟨cfg, accepted, inMemory, span⟩ := ofEnvironment_span h
  have fresh := opening_fresh TimedCache.empty
  exact ⟨⟨cfg, accepted, inMemory, span.symm⟩, fresh.store, fresh.cache, fresh.faultless, fresh.proper⟩

/-- A parcel is accepted where histories are kept for a minute, and its history is looked at. -/
theorem reads_answered_for_a_minute :
    (orderHistory 1 (Turn.run (keepingFor 60) [.call (.accept lightParcel)])).1 =
        .ok ((Turn.run (keepingFor 60) [.call (.accept lightParcel)]).store.orderHistory 1) ∧
      ((orderHistory 1 (Turn.run (keepingFor 60) [.call (.accept lightParcel)])).1.toOption.map
        (·.map (·.status))) = some [.expects] := by
  have started : Started (spanEnvironment 60) (keepingFor 60) := keepingFor_started (by decide)
  have begun : (Turn.run (keepingFor 60) [.call (.accept lightParcel)]).store.orderHistory 1 ≠ [] := by decide +kernel
  have fits : ¬ Overflows 1 (Turn.run (keepingFor 60) [.call (.accept lightParcel)]) := by decide +kernel
  obtain ⟨-, answered, -⟩ := reads_answered_iff started [.call (.accept lightParcel)] 1 begun
  exact ⟨answered.2 fits, by decide +kernel⟩

/-- Where they are kept for as long as 64 bits can say, the look panics, although the store has the history. -/
theorem cold_read_panics :
    Started (spanEnvironment 18446744073709551615) (keepingFor 18446744073709551615) ∧
      ((Turn.run (keepingFor 18446744073709551615) [.call (.accept lightParcel)]).store.orderHistory 1).map (·.status) =
        [.expects] ∧
      (orderHistory 1 (Turn.run (keepingFor 18446744073709551615) [.call (.accept lightParcel)])).1 =
        .error (.panic "overflow when adding duration to instant") := by
  refine ⟨keepingFor_started (by decide), ?_, ?_⟩
  · decide +kernel
  · decide +kernel

end PickupPoint
