/-
How acts run, and laws that acts obey.

The first part says of basic acts what they answer and which site they leave. The second part is for everything that
is built of them: a `Law` relates the site before an act, how the act halted if it did, and the site after it, and
`Obeys R act s Q` says that `act`, started on `s`, obeys the law `R` and that its answer and the store it leaves
satisfy `Q`. What acts do one after the other obeys a law that is closed under sequence (`Obeys.bind`).

The laws are about what an act leaves alone:
- `Silent`: everything but the clock, the event ids and what faults have seen;
- `Within`: the same but for the store, as the work inside a transaction does;
- `Aside`: the same but for the store and the count of failures;
- `Undone R`: what `R` says, and the store if the act halts.
A panic comes only from a fault that panics (`calm`), where the cache is not asked.
-/
import Mathlib.Tactic.Common
import PickupPoint.Service.Transaction
import PickupPoint.Proofs.Faults

namespace PickupPoint

namespace Act

variable {σ κ α β : Type}

/-! ## Basic acts -/

theorem bind_run (act : Act σ κ α) (f : α → Act σ κ β) (s : Site σ κ) :
    (act >>= f) s = match act s with
      | (.ok a, s') => f a s'
      | (.error h, s') => (.error h, s') := by
  show (ExceptT.bind act f) s = _
  simp only [ExceptT.bind, ExceptT.mk, ExceptT.bindCont, bind, StateT.bind]
  rcases act s with ⟨_ | _, s'⟩ <;> rfl

@[simp]
theorem refuse_bind (e : Error) (f : α → Act σ κ β) : (refuse e >>= f) = refuse e := by
  funext s; rw [bind_run]; rfl

@[simp]
theorem fail_bind (e : Error) (f : α → Act σ κ β) : (fail e >>= f) = fail e := by
  funext s; rw [bind_run]; rfl

@[simp]
theorem noteEvent_run (t : EventType) (s : Site σ κ) :
    noteEvent t s = (.ok (), { s with metrics := s.metrics.countEvent t }) := rfl

@[simp]
theorem readClock_run (s : Site σ κ) :
    readClock s = (.ok s.clock.current, { s with clock := s.clock.advance }) := rfl

theorem ofExcept_run (r : Except Error α) (s : Site σ κ) : (ofExcept r : Act σ κ α) s = (r.mapError .error, s) := by
  cases r <;> rfl

theorem onStore_run (op : Instant → Access σ α) (s : Site σ κ) :
    onStore op s =
      ((op s.clock.current s.store).1.mapError .error, { s with store := (op s.clock.current s.store).2 }) := by
  show ofExcept (op s.clock.current s.store).1 { s with store := (op s.clock.current s.store).2 } = _
  rw [ofExcept_run]

/-- a cache that fails answers nothing -/
def heard : Except CacheFailure α → Except Halt (Option α)
  | .ok a => .ok (some a)
  | .error .unavailable => .ok none
  | .error (.panic text) => .error (.panic text)

theorem onCache_run (op : Instant → CacheAccess κ α) (s : Site σ κ) :
    onCache op s = (heard (op s.clock.current s.cache).1, { s with cache := (op s.clock.current s.cache).2 }) := by
  show (match (op s.clock.current s.cache).1 with
      | .ok a => pure (some a)
      | .error .unavailable => pure none
      | .error (.panic text) => panic text : Act σ κ (Option α)) _ = _
  rcases (op s.clock.current s.cache).1 with (_ | _) | _ <;> rfl

/-- the answer of an arrival to an effect -/
def metBy : Option Effect → Except Halt Bool
  | none => .ok false
  | some .skip => .ok true
  | some (.error e) => .error (.error e)
  | some (.panic text) => .error (.panic text)

theorem arrive_run (p : Point) (after : Bool) (s : Site σ κ) :
    arrive p after s =
      (metBy (Fault.arrive p after s.faults).1, { s with faults := (Fault.arrive p after s.faults).2 }) := by
  show (match (Fault.arrive p after s.faults).1 with
      | none => pure false
      | some .skip => pure true
      | some (.error e) => refuse e
      | some (.panic text) => panic text : Act σ κ Bool) _ = _
  rcases (Fault.arrive p after s.faults).1 with _ | _ | _ | _ <;> rfl

theorem attempt_run (act : Act σ κ α) (s : Site σ κ) :
    attempt act s = match act s with
      | (.ok a, s') => (.ok (.ok a), s')
      | (.error (.error e), s') => (.ok (.error e), s')
      | (.error (.panic text), s') => (.error (.panic text), s') := rfl

/-- A refusal is counted as it passes; an answer and a panic pass as they are. -/
theorem counted_run (act : Act σ κ α) (s : Site σ κ) :
    counted act s = match act s with
      | (.error (.error e), s') => (.error (.error e), { s' with metrics := s'.metrics.countFailure e.code })
      | (r, s') => (r, s') := by
  unfold counted; rw [bind_run, attempt_run]
  rcases act s with ⟨(_ | _) | _, s'⟩ <;> rfl

/-- the act, and an arrival once it has succeeded -/
def closedAt (p : Point) (after : Bool) (act : Act σ κ α) : Act σ κ α := do
  let a ← act
  let _ ← arrive p after
  return a

/-! ## Laws -/

/-- relates the site before an act, how it halted, and the site after it -/
abbrev Law (σ κ : Type) := Site σ κ → Option Halt → Site σ κ → Prop

def halt? : Except Halt α → Option Halt
  | .ok _ => none
  | .error h => some h

/-- `act`, started on `s`, obeys `R`, and what it answers satisfies `Q` with the store it leaves -/
structure Obeys (R : Law σ κ) (act : Act σ κ α) (s : Site σ κ) (Q : α → σ → Prop) : Prop where
  law : R s (halt? (act s).1) (act s).2
  answer : ∀ a, (act s).1 = .ok a → Q a (act s).2.store

/-- all is as before but the clock, the event ids, what faults have seen, the store and the count of failures -/
structure Aside (s : Site σ κ) (h : Option Halt) (s' : Site σ κ) : Prop where
  readings : s'.clock.readings = s.clock.readings
  taken : s.clock.taken ≤ s'.clock.taken
  cache : s'.cache = s.cache
  cacheTtl : s'.cacheTtl = s.cacheTtl
  events : s'.metrics.events = s.metrics.events
  effects : Fault.effects s'.faults = Fault.effects s.faults
  calm : ∀ text, h = some (.panic text) → .panic text ∈ Fault.effects s.faults

/-- and no failure has been counted -/
structure Within (s : Site σ κ) (h : Option Halt) (s' : Site σ κ) : Prop extends Aside s h s' where
  metrics : s'.metrics = s.metrics

/-- the faults at the commit have seen nothing -/
def Uncommitted (s : Site σ κ) (_ : Option Halt) (s' : Site σ κ) : Prop :=
  Fault.waiting .commit false s'.faults = Fault.waiting .commit false s.faults

/-- nothing is written either -/
structure Silent (s : Site σ κ) (h : Option Halt) (s' : Site σ κ) : Prop extends Within s h s' where
  store : s'.store = s.store
  commit : Uncommitted s h s'

/-- such as `R` says, and an act that halts leaves the store as it was -/
def Undone (R : Law σ κ) : Law σ κ := fun s h s' => R s h s' ∧ (h ≠ none → s'.store = s.store)

/-- a law that holds of what obeys it piece by piece -/
class Composes (R : Law σ κ) : Prop where
  comp {s₁ s₂ s₃ : Site σ κ} {h : Option Halt} : R s₁ none s₂ → R s₂ h s₃ → R s₁ h s₃

/-- such a law that silent acts obey, and that does not tell a refusal from an answer -/
class Frame (R : Law σ κ) : Prop extends Composes R where
  silent {s s' : Site σ κ} {h : Option Halt} : Silent s h s' → R s h s'
  attempt {s s' : Site σ κ} {e : Error} : R s (some (.error e)) s' → R s none s'

/-- such a law that leaves the store free -/
class Writes (R : Law σ κ) : Prop extends Frame R where
  write {s s' : Site σ κ} {h : Option Halt} (m : σ) : R s h s' → R s h { s' with store := m }

/-- such a law that holds at every point, the commit included -/
class Commits (R : Law σ κ) : Prop extends Writes R where
  arrive (p : Point) (after : Bool) (s : Site σ κ) : R s (halt? (arrive p after s).1) (arrive p after s).2

theorem Aside.comp {s₁ s₂ s₃ : Site σ κ} {h : Option Halt} (h₁ : Aside s₁ none s₂) (h₂ : Aside s₂ h s₃) :
    Aside s₁ h s₃ where
  readings := h₂.readings.trans h₁.readings
  taken := Nat.le_trans h₁.taken h₂.taken
  cache := h₂.cache.trans h₁.cache
  cacheTtl := h₂.cacheTtl.trans h₁.cacheTtl
  events := h₂.events.trans h₁.events
  effects := h₂.effects.trans h₁.effects
  calm text ht := h₁.effects ▸ h₂.calm text ht

theorem Aside.attempt {s s' : Site σ κ} {e : Error} (h : Aside s (some (.error e)) s') : Aside s none s' :=
  { h with calm := nofun }

theorem Within.comp {s₁ s₂ s₃ : Site σ κ} {h : Option Halt} (h₁ : Within s₁ none s₂) (h₂ : Within s₂ h s₃) :
    Within s₁ h s₃ :=
  { h₁.toAside.comp h₂.toAside with metrics := h₂.metrics.trans h₁.metrics }

theorem Silent.refl (s : Site σ κ) : Silent s none s :=
  ⟨⟨⟨rfl, Nat.le_refl _, rfl, rfl, rfl, rfl, nofun⟩, rfl⟩, rfl, rfl⟩

/-- an arrival anywhere -/
theorem Within.arrive (p : Point) (after : Bool) (s : Site σ κ) :
    Within s (halt? (arrive p after s).1) (arrive p after s).2 := by
  rw [arrive_run]
  refine { (Silent.refl s).toWithin with effects := Fault.effects_arrive p after s.faults, calm := ?_ }
  intro text ht
  refine @Fault.effect_mem p after s.faults (.panic text) ?_
  rcases hm : (Fault.arrive p after s.faults).1 with _ | _ | _ | _ <;> rw [hm] at ht <;> cases ht
  rfl

instance : Commits (@Aside σ κ) where
  comp := Aside.comp
  silent h := h.toAside
  attempt := Aside.attempt
  write _ h := { h with }
  arrive p after s := (Within.arrive p after s).toAside

instance : Commits (@Within σ κ) where
  comp := Within.comp
  silent h := h.toWithin
  attempt h := { h.toAside.attempt with metrics := h.metrics }
  write _ h := { h with }
  arrive := Within.arrive

instance : Frame (@Silent σ κ) where
  comp h₁ h₂ := { h₁.toWithin.comp h₂.toWithin with
    store := h₂.store.trans h₁.store
    commit := h₂.commit.trans h₁.commit }
  silent h := h
  attempt h := { h.toAside.attempt with metrics := h.metrics, store := h.store, commit := h.commit }

namespace Obeys

variable {R : Law σ κ} {act : Act σ κ α} {s : Site σ κ} {P : α → σ → Prop}

theorem mono {Q : α → σ → Prop} (h : Obeys R act s P) (hQ : ∀ a m, P a m → Q a m) : Obeys R act s Q :=
  ⟨h.law, fun a ha => hQ _ _ (h.answer a ha)⟩

/-- What is done first hands its answer, and the site it leaves, to what is done next. The laws may differ, if
together they make one. -/
theorem seq {R₁ R₂ : Law σ κ} {f : α → Act σ κ β} {Q : β → σ → Prop} (h : Obeys R₁ act s P)
    (hhalt : ∀ {s s' : Site σ κ} {h : Halt}, R₁ s (some h) s' → R s (some h) s')
    (hcomp : ∀ {s₁ s₂ s₃ : Site σ κ} {h : Option Halt}, R₁ s₁ none s₂ → R₂ s₂ h s₃ → R s₁ h s₃)
    (hf : ∀ a s', R₁ s none s' → P a s'.store → Obeys R₂ (f a) s' Q) : Obeys R (act >>= f) s Q := by
  obtain ⟨law, answer⟩ := h
  constructor <;> rw [bind_run] <;> rcases hr : act s with ⟨_ | a, s'⟩ <;> rw [hr] at law answer
  · exact hhalt law
  · exact hcomp law (hf a s' law (answer a rfl)).law
  · intro a ha; cases ha
  · exact (hf a s' law (answer a rfl)).answer

theorem bind [Composes R] {f : α → Act σ κ β} {Q : β → σ → Prop} (h : Obeys R act s P)
    (hf : ∀ a s', R s none s' → P a s'.store → Obeys R (f a) s' Q) : Obeys R (act >>= f) s Q :=
  h.seq id Composes.comp hf

section Frame

variable [Frame R]

theorem pure {a : α} (h : P a s.store) : Obeys R (Pure.pure a : Act σ κ α) s P :=
  ⟨Frame.silent (Silent.refl s), by intro b hb; cases hb; exact h⟩

theorem refuse (e : Error) : Obeys R (refuse e : Act σ κ α) s P :=
  ⟨Frame.silent { Silent.refl s with calm := nofun }, nofun⟩

theorem ofExcept {r : Except Error α} (h : ∀ a, r = .ok a → P a s.store) : Obeys R (ofExcept r) s P := by
  cases r with
  | ok a => exact pure (h a rfl)
  | error e => exact refuse e

theorem readClock : Obeys R readClock s fun _ m => m = s.store :=
  ⟨Frame.silent { Silent.refl s with taken := Nat.le_succ _ }, fun _ _ => rfl⟩

theorem newEventId : Obeys R newEventId s fun _ m => m = s.store :=
  ⟨Frame.silent { Silent.refl s with }, fun _ _ => rfl⟩

/-- an arrival anywhere but at the commit -/
theorem arrive {p : Point} (after : Bool) (hp : p ≠ .commit) : Obeys R (arrive p after) s fun _ m => m = s.store := by
  constructor
  · exact Frame.silent { Within.arrive p after s with
      store := by rw [arrive_run]
      commit := by rw [arrive_run]; exact Fault.waiting_arrive (fun h => hp h.1) s.faults }
  · intro b _; rw [arrive_run]

theorem attempt (h : Obeys R act s P) :
    Obeys R (attempt act) s fun r m => ∀ a, r = .ok a → P a m := by
  obtain ⟨law, answer⟩ := h
  constructor <;> rw [attempt_run] <;> rcases hr : act s with ⟨(_ | _) | a, s'⟩ <;> rw [hr] at law answer
  · exact Frame.attempt law
  · exact law
  · exact law
  · intro r hr' a ha; cases hr'; cases ha
  · intro r hr'; cases hr'
  · intro r hr' b hb; cases hr'; cases hb; exact answer a rfl

theorem closedAt {p : Point} (after : Bool) (hp : p ≠ .commit) (h : Obeys R act s P) :
    Obeys R (Act.closedAt p after act) s P :=
  h.bind fun _ _ _ ha => (arrive after hp).bind fun _ _ _ hs => pure (hs ▸ ha)

/-- A call that faults can reach. What its own act obeys, on whatever the faults leave of the site, it obeys. -/
theorem reachedAt {p : Point} (hp : p ≠ .commit)
    (h : ∀ s', s'.store = s.store → Obeys R act s' P) : Obeys R (reachedAt p act) s P :=
  (arrive false hp).bind fun _ s₁ _ hs => (h s₁ hs).closedAt true hp

end Frame

theorem arrive_any [Commits R] (p : Point) (after : Bool) :
    Obeys R (Act.arrive p after) s fun _ m => m = s.store :=
  ⟨Commits.arrive p after s, fun _ _ => by rw [arrive_run]⟩

theorem closedAt_any [Commits R] (p : Point) (after : Bool) (h : Obeys R act s P) :
    Obeys R (Act.closedAt p after act) s P :=
  h.bind fun _ _ _ ha => (arrive_any p after).bind fun _ _ _ hs => pure (hs ▸ ha)

/-- An operation that writes. -/
theorem onStore [Writes R] {op : Instant → Access σ α}
    (h : ∀ now a m, op now s.store = (.ok a, m) → P a m) : Obeys R (onStore op) s P := by
  constructor <;> rw [onStore_run] <;> rcases hr : op s.clock.current s.store with ⟨_ | a, m⟩
  · exact Writes.write m (Frame.silent { Silent.refl s with calm := nofun })
  · exact Writes.write m (Frame.silent (Silent.refl s))
  · intro a ha; cases ha
  · intro b hb; cases hb; exact h _ _ _ hr

/-- An operation that reads. -/
theorem onStore_read [Frame R] {op : Instant → Access σ α} (hop : ∀ now, (op now s.store).2 = s.store)
    (h : ∀ now a, (op now s.store).1 = .ok a → P a s.store) : Obeys R (Act.onStore op) s P := by
  constructor <;> rw [onStore_run, hop]
  · rcases (op s.clock.current s.store).1 with _ | a
    · exact Frame.silent { Silent.refl s with calm := nofun }
    · exact Frame.silent (Silent.refl s)
  · intro a ha
    rcases hr : (op s.clock.current s.store).1 with _ | b <;> rw [hr] at ha <;> cases ha
    exact h _ _ hr

/-- A call of the store that faults can reach, and that writes. -/
theorem call [Writes R] {p : Point} (hp : p ≠ .commit) {op : Instant → Access σ α}
    (h : ∀ now a m, op now s.store = (.ok a, m) → P a m) : Obeys R (Act.reachedAt p (Act.onStore op)) s P :=
  reachedAt hp fun s' hs => onStore (by rw [hs]; exact h)

/-- Such a call that reads. -/
theorem read [Frame R] {p : Point} (hp : p ≠ .commit) {op : Instant → Access σ α}
    (hop : ∀ now, (op now s.store).2 = s.store) (h : ∀ now a, (op now s.store).1 = .ok a → P a s.store) :
    Obeys R (Act.reachedAt p (Act.onStore op)) s P :=
  reachedAt hp fun s' hs => onStore_read (by rw [hs]; exact hop) (by rw [hs]; exact h)

end Obeys

end Act
end PickupPoint
