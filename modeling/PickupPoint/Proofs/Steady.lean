/-
Work that refuses nothing, and its scopes.

`Steady` is the law of work that ends with an answer unless a fault panics, and that leaves the faults at the commit
as they are. A savepoint whose refusal is caught is such work, and leaves what its act came to or nothing
(`attempt_savepoint_obeys`); so is dropping a history from a cache that does not panic (`drops_calm`). A transaction
of steady work goes through, unless its opening or its commit is refused (`transaction_ends`).
-/
import PickupPoint.Cache.KeyValue
import PickupPoint.Cache.Timed
import PickupPoint.Proofs.Tally

namespace PickupPoint

namespace Act

variable {σ κ α : Type}

/-! ## Laws -/

/-- nothing waiting at the commit has seen anything -/
structure Inside (s : Site σ κ) (h : Option Halt) (s' : Site σ κ) : Prop extends Aside s h s' where
  commit : Uncommitted s h s'

/-- and nothing is refused -/
structure Steady (s : Site σ κ) (h : Option Halt) (s' : Site σ κ) : Prop extends Inside s h s' where
  granted : ∀ e, h ≠ some (.error e)

instance : Writes (@Inside σ κ) where
  comp h₁ h₂ := { h₁.toAside.comp h₂.toAside with commit := h₂.commit.trans h₁.commit }
  silent h := { h.toAside with commit := h.commit }
  attempt h := { h.toAside.attempt with commit := h.commit }
  write _ h := { h with }

instance : Composes (@Steady σ κ) where
  comp h₁ h₂ := { (Composes.comp h₁.toInside h₂.toInside : Inside _ _ _) with granted := h₂.granted }

namespace Obeys

variable {act : Act σ κ α} {s : Site σ κ} {P : α → σ → Prop}

theorem steady (h : Obeys Inside act s P) (hr : ∀ e, halt? (act s).1 ≠ some (.error e)) : Obeys Steady act s P :=
  ⟨{ h.law with granted := hr }, h.answer⟩

theorem steady_pure {a : α} (h : P a s.store) : Obeys Steady (Pure.pure a : Act σ κ α) s P :=
  (Obeys.pure h).steady nofun

theorem steady_noteFailure (e : Error) : Obeys Steady (noteFailure e) s fun _ m => m = s.store :=
  ⟨{ (Silent.refl s).toAside with commit := rfl, granted := nofun }, fun _ _ => rfl⟩

end Obeys

/-- Where faults panic nowhere, steady work ends with an answer. -/
theorem Steady.answers {act : Act σ κ α} {s : Site σ κ} {Q : α → σ → Prop} (h : Obeys Steady act s Q)
    (calm : Fault.Calm s.faults) : ∃ a s', act s = (.ok a, s') ∧ Steady s none s' ∧ Q a s'.store := by
  obtain ⟨law, answer⟩ := h
  rcases hr : act s with ⟨(e | text) | a, s'⟩ <;> rw [hr] at law answer
  · exact absurd rfl (law.granted e)
  · exact absurd (law.calm text rfl) (calm text)
  · exact ⟨a, s', rfl, law, answer a rfl⟩

theorem Aside.stays_calm {s s' : Site σ κ} {h : Option Halt} (ha : Aside s h s') (calm : Fault.Calm s.faults) :
    Fault.Calm s'.faults := by
  intro text; rw [ha.effects]; exact calm text

/-- Where faults panic nowhere, an arrival is refused or answered. -/
theorem arrive_calm {s : Site σ κ} (calm : Fault.Calm s.faults) (p : Point) :
    ∃ s', Aside s none s' ∧ s'.store = s.store ∧ s'.faults = (Fault.arrive p false s.faults).2 ∧
      ((∃ e, arrive p false s = (.error (.error e), s') ∧ Fault.Refuses p s.faults) ∨
        (∃ b, arrive p false s = (.ok b, s') ∧ ¬ Fault.Refuses p s.faults)) := by
  have aside := (Within.arrive p false s).toAside
  rw [arrive_run] at aside
  refine ⟨_, { aside with calm := nofun }, rfl, rfl, ?_⟩
  rw [arrive_run]
  rcases hm : (Fault.arrive p false s.faults).1 with _ | e | text | _
  · exact .inr ⟨false, rfl, by rintro ⟨e, he⟩; rw [hm] at he; cases he⟩
  · exact .inl ⟨e, rfl, e, hm⟩
  · exact absurd (Fault.effect_mem hm) (calm text)
  · exact .inr ⟨true, rfl, by rintro ⟨e, he⟩; rw [hm] at he; cases he⟩

end Act

open Act

variable {κ α : Type}

/-! ## Scopes -/

/-- What a savepoint leaves: what its work came to, or nothing. -/
theorem attempt_savepoint_obeys {R : Law Memory κ} [Writes R] {act : Act Memory κ α} {s : Site Memory κ}
    {Q : α → Memory → Prop} (h : ∀ s', s'.store = s.store → Obeys R act s' Q) :
    Obeys R (attempt (savepoint act)) s fun r m => (∃ a, r = .ok (some a) ∧ Q a m) ∨
      ((r = .ok none ∨ ∃ e, r = .error e) ∧ m = s.store) := by
  have opened : Obeys R (arrive .txSavepoint false) s fun _ _ => True :=
    (Obeys.arrive false (by decide)).mono fun _ _ _ => trivial
  have kept : (arrive .txSavepoint false s).2.store = s.store := by rw [arrive_run]
  obtain ⟨law, -⟩ := opened
  rcases hb : arrive .txSavepoint false s with ⟨(e | text) | (_ | _), s₁⟩ <;> rw [hb] at law kept
  · constructor <;> rw [attempt_run, savepoint_run, hb]
    · exact Frame.attempt law
    · intro r hr; cases hr; exact .inr ⟨.inr ⟨e, rfl⟩, kept⟩
  · constructor <;> rw [attempt_run, savepoint_run, hb]
    · exact law
    · nofun
  · obtain ⟨law', answer⟩ := (h s₁ kept).closedAt true (p := .txSavepoint) (by decide)
    constructor <;> rw [attempt_run, savepoint_run, hb] <;> dsimp only <;>
      rcases hw : closedAt .txSavepoint true act s₁ with ⟨(e | text) | a, s₂⟩ <;> rw [hw] at law' answer
    · exact Frame.attempt (Composes.comp law (Writes.write _ law'))
    · exact Composes.comp law law'
    · exact Composes.comp law law'
    · intro r hr; cases hr; exact .inr ⟨.inr ⟨e, rfl⟩, kept⟩
    · nofun
    · intro r hr; cases hr; exact .inl ⟨a, rfl, answer a rfl⟩
  · constructor <;> rw [attempt_run, savepoint_run, hb]
    · exact law
    · intro r hr; cases hr; exact .inr ⟨.inl rfl, kept⟩

/-- whether the transaction is refused at its ends -/
def Stopped (s : Site Memory κ) : Prop := Fault.Refuses .begin s.faults ∨ Fault.Refuses .commit s.faults

/-- Steady work ends its transaction with an answer, unless the opening or the commit is refused. -/
theorem transaction_ends {act : Act Memory κ α} {s : Site Memory κ} {Q : α → Memory → Prop}
    (calm : Fault.Calm s.faults) (h : ∀ s', s'.store = s.store → Obeys Steady act s' Q) :
    (∃ e s', transaction act s = (.error (.error e), s') ∧ Stopped s ∧ Aside s none s' ∧ s'.store = s.store) ∨
      (∃ a s', transaction act s = (.ok a, s') ∧ ¬ Stopped s ∧ Aside s none s' ∧ Q a s'.store) := by
  obtain ⟨s₁, opening, hs, hf, ⟨e, hb, refused⟩ | ⟨b, hb, opened⟩⟩ := arrive_calm calm .begin
  · rw [transaction_run, hb]
    exact .inl ⟨e, s₁, rfl, .inl refused, opening, hs⟩
  obtain ⟨a, s₂, hr, steady, answer⟩ := Steady.answers (h s₁ hs) (opening.stays_calm calm)
  have worked : Aside s none s₂ := opening.comp steady.toAside
  -- neither the opening nor the work has been seen by the faults that wait at the commit
  have waiting : Fault.Refuses .commit s₂.faults ↔ Fault.Refuses .commit s.faults := by
    refine Fault.refuses_congr (Eq.trans steady.commit ?_)
    rw [hf]
    exact Fault.waiting_arrive (by decide) s.faults
  rw [transaction_run, hb]
  dsimp only [closedAt]
  rw [bind_run, hr]
  dsimp only
  rw [bind_run]
  have calm₂ : Fault.Calm s₂.faults := worked.stays_calm calm
  obtain ⟨s₃, closing, hs₃, -, ⟨e, hc, refused⟩ | ⟨b', hc, closed⟩⟩ := arrive_calm calm₂ .commit <;> rw [hc]
  · exact .inl ⟨e, _, rfl, .inr (waiting.1 refused), { worked.comp closing with }, hs⟩
  · exact .inr ⟨a, s₃, rfl, not_or.2 ⟨opened, fun hr => closed (waiting.2 hr)⟩, worked.comp closing, hs₃ ▸ answer⟩

/-! ## Dropping histories -/

/-- a cache that drops a history does not panic -/
def DropsQuietly (κ : Type) [HistoryCache κ] : Prop :=
  ∀ (key : String) (now : Instant) (c : κ) (text : String), (HistoryCache.delete key now c).1 ≠ .error (.panic text)

theorem caches_dropQuietly : DropsQuietly TimedCache ∧ DropsQuietly CacheServer ∧ DropsQuietly UnreachableCache := by
  refine ⟨fun key now c text h => ?_, fun key now c text h => ?_, fun key now c text h => ?_⟩
  · cases h
  · change (CacheServer.delete key c).1 = _ at h
    unfold CacheServer.delete at h
    split at h <;> cases h
  · cases h

section Cache

variable [HistoryCache κ] (quiet : DropsQuietly κ)
include quiet

theorem dropHistory_calm (id : Nat) {s : Site Memory κ} (calm : Fault.Calm s.faults) :
    ∃ s', dropHistory id s = (.ok (), s') ∧ Asked s none s' := by
  have asked := (dropHistory_obeys id s).law
  have answers : (dropHistory id s).1 = .ok () := by
    unfold dropHistory askCache
    rw [bind_run, bind_run, attempt_run]
    obtain ⟨s₁, -, -, -, ⟨e, ha, -⟩ | ⟨b, ha, -⟩⟩ := arrive_calm calm .cacheDelete <;> rw [ha] <;> dsimp only
    · rfl
    · rw [onCache_run]
      rcases hr : (HistoryCache.delete (cacheKey id) s₁.clock.current s₁.cache).1 with (_ | text) | _
      · rfl
      · exact absurd hr (quiet _ _ _ text)
      · rfl
  rcases hd : dropHistory id s with ⟨r, s'⟩
  rw [hd] at asked answers
  cases answers
  exact ⟨s', rfl, asked⟩

theorem drops_calm (ids : List Nat) {s : Site Memory κ} (calm : Fault.Calm s.faults) :
    ∃ s', ids.forM dropHistory s = (.ok (), s') ∧ Asked s none s' := by
  induction ids generalizing s with
  | nil => exact ⟨s, rfl, (Silent.refl s).asked nofun⟩
  | cons id ids ih =>
    obtain ⟨s₁, hr, asked⟩ := dropHistory_calm quiet id calm
    obtain ⟨s₂, hr', asked'⟩ := @ih s₁ (by intro text; rw [asked.effects]; exact calm text)
    refine ⟨s₂, ?_, Composes.comp asked asked'⟩
    show (do dropHistory id; ids.forM dropHistory : Act Memory κ Unit) s = _
    rw [bind_run, hr]
    exact hr'

end Cache

end PickupPoint
