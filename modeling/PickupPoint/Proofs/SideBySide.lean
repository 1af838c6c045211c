/-
Two acts side by side, each on a site of its own.

`Together K act act' Q E` says of two acts that start on sites which `K` relates: both answer, and `Q` relates the
answers and the sites that they leave, or both are refused for one cause, and `E` relates the sites. Neither panics.
What is done one after the other on both sides goes by one rule (`Together.bind`), and so do loops over one list.

Acts that do not ask the cache keep sites `Near` the ones that they began on: the clocks show the same, the same events
are counted, and what has to do with the cache is untouched. Only what relates the stores is left open.
-/
import PickupPoint.Proofs.Laws

namespace PickupPoint

/-- Two outcomes with what they leave: both are answers, or both are refusals for one cause. -/
inductive Match {σ τ α β : Type} (Q : α → β → σ → τ → Prop) (E : σ → τ → Prop) :
    Except Error α → Except Error β → σ → τ → Prop
  | ok {a : α} {b : β} {m : σ} {n : τ} (h : Q a b m n) : Match Q E (.ok a) (.ok b) m n
  | error {e : Error} {m : σ} {n : τ} (h : E m n) : Match Q E (.error e) (.error e) m n

theorem Match.mono {σ τ α β : Type} {Q Q' : α → β → σ → τ → Prop} {E E' : σ → τ → Prop} {r : Except Error α}
    {r' : Except Error β} {m : σ} {n : τ} (h : Match Q E r r' m n) (hQ : ∀ a b m n, Q a b m n → Q' a b m n)
    (hE : ∀ m n, E m n → E' m n) : Match Q' E' r r' m n := by
  cases h with
  | ok h => exact .ok (hQ _ _ _ _ h)
  | error h => exact .error (hE _ _ h)

/-- One answer on both sides. -/
theorem Match.of_eq {σ τ α : Type} {Q : α → α → σ → τ → Prop} {E : σ → τ → Prop} {r r' : Except Error α} {m : σ} {n : τ}
    (same : r' = r) (ok : ∀ a, r = .ok a → Q a a m n) (error : ∀ e, r = .error e → E m n) : Match Q E r r' m n := by
  subst same
  cases r' with
  | ok a => exact .ok (ok a rfl)
  | error e => exact .error (error e rfl)

namespace Act

variable {σ τ κ ν α β γ δ : Type}

/-- the outcome of an act that does not panic -/
abbrev outcome (r : Except Error α) : Except Halt α := r.mapError .error

/-- both acts answer, or both are refused for one cause -/
def Together (K : Site σ κ → Site τ ν → Prop) (act : Act σ κ α) (act' : Act τ ν β)
    (Q : α → β → Site σ κ → Site τ ν → Prop) (E : Site σ κ → Site τ ν → Prop) : Prop :=
  ∀ s s', K s s' → ∃ r r' s₁ s₁', act s = (outcome r, s₁) ∧ act' s' = (outcome r', s₁') ∧ Match Q E r r' s₁ s₁'

namespace Together

variable {K : Site σ κ → Site τ ν → Prop} {act : Act σ κ α} {act' : Act τ ν β}
  {P : α → β → Site σ κ → Site τ ν → Prop} {Q : γ → δ → Site σ κ → Site τ ν → Prop}
  {E : Site σ κ → Site τ ν → Prop}

theorem mono {K' : Site σ κ → Site τ ν → Prop} {P' : α → β → Site σ κ → Site τ ν → Prop}
    {E' : Site σ κ → Site τ ν → Prop} (h : Together K act act' P E) (hK : ∀ s s', K' s s' → K s s')
    (hP : ∀ a b s s', P a b s s' → P' a b s s') (hE : ∀ s s', E s s' → E' s s') : Together K' act act' P' E' := by
  intro s s' hk
  obtain ⟨r, r', s₁, s₁', hr, hr', ends⟩ := h s s' (hK s s' hk)
  exact ⟨r, r', s₁, s₁', hr, hr', ends.mono hP hE⟩

theorem weaken {P' : α → β → Site σ κ → Site τ ν → Prop} (h : Together K act act' P E)
    (hP : ∀ a b s s', P a b s s' → P' a b s s') : Together K act act' P' E :=
  h.mono (fun _ _ => id) hP fun _ _ => id

/-- what is known of the sites apart from how they are related -/
theorem given {φ : Prop} (h : φ → Together K act act' P E) : Together (fun s s' => φ ∧ K s s') act act' P E :=
  fun s s' hk => h hk.1 s s' hk.2

theorem pure {a : α} {b : β} (h : ∀ s s', K s s' → P a b s s') :
    Together K (Pure.pure a : Act σ κ α) (Pure.pure b : Act τ ν β) P E :=
  fun s s' hk => ⟨.ok a, .ok b, s, s', rfl, rfl, .ok (h s s' hk)⟩

theorem refuse (e : Error) (h : ∀ s s', K s s' → E s s') :
    Together K (Act.refuse e : Act σ κ α) (Act.refuse e : Act τ ν β) P E :=
  fun s s' hk => ⟨.error e, .error e, s, s', rfl, rfl, .error (h s s' hk)⟩

/-- Answers of the first acts, and the sites that they leave, are handed to the second. -/
theorem bind {f : α → Act σ κ γ} {f' : β → Act τ ν δ} (h : Together K act act' P E)
    (hf : ∀ a b, Together (P a b) (f a) (f' b) Q E) : Together K (act >>= f) (act' >>= f') Q E := by
  intro s s' hk
  obtain ⟨r, r', s₁, s₁', hr, hr', ends⟩ := h s s' hk
  rw [bind_run, bind_run, hr, hr']
  cases ends with
  | ok hp => exact hf _ _ s₁ s₁' hp
  | error he => exact ⟨.error _, .error _, s₁, s₁', rfl, rfl, .error he⟩

theorem ofExcept {r : Except Error α} {r' : Except Error β} (h : ∀ s s', K s s' → Match P E r r' s s') :
    Together K (Act.ofExcept r) (Act.ofExcept r') P E := by
  intro s s' hk
  exact ⟨r, r', s, s', ofExcept_run r s, ofExcept_run r' s', h s s' hk⟩

/-- Refusals that are caught have one cause on both sides. -/
theorem attempt {E' : Site σ κ → Site τ ν → Prop} (h : Together K act act' P E) :
    Together K (Act.attempt act) (Act.attempt act') (fun r r' s s' => Match P E r r' s s') E' := by
  intro s s' hk
  obtain ⟨r, r', s₁, s₁', hr, hr', ends⟩ := h s s' hk
  refine ⟨.ok r, .ok r', s₁, s₁', ?_, ?_, .ok ends⟩
  · rw [attempt_run, hr]; cases r <;> rfl
  · rw [attempt_run, hr']; cases r' <;> rfl

theorem matched {r : Except Error γ} {r' : Except Error δ} {E' : Site σ κ → Site τ ν → Prop}
    (ok : ∀ c d, r = .ok c → r' = .ok d → Together (Q c d) act act' P E')
    (error : ∀ e, r = .error e → r' = .error e → Together E act act' P E') :
    Together (fun s s' => Match Q E r r' s s') act act' P E' := by
  intro s s' ends
  cases ends with
  | ok hq => exact ok _ _ rfl rfl s s' hq
  | error he => exact error _ rfl rfl s s' he

/-- one check on both sides -/
theorem check (r : Except Error α) : Together K (Act.ofExcept r) (Act.ofExcept r)
    (fun a b s s' => (b = a ∧ r = .ok a) ∧ K s s') K := by
  refine ofExcept fun s s' hk => ?_
  cases r with
  | ok a => exact .ok ⟨⟨rfl, rfl⟩, hk⟩
  | error e => exact .error hk

/-! ## Loops -/

theorem mapM {f : γ → Act σ κ α} {f' : γ → Act τ ν α} {items : List γ}
    (h : ∀ x ∈ items, Together K (f x) (f' x) (fun a b s s' => b = a ∧ K s s') E) :
    Together K (items.mapM f) (items.mapM f') (fun as bs s s' => bs = as ∧ K s s') E := by
  induction items with
  | nil => exact pure fun s s' hk => ⟨rfl, hk⟩
  | cons x items ih =>
    rw [List.mapM_cons, List.mapM_cons]
    refine (h x List.mem_cons_self).bind fun a b => given ?_
    rintro rfl
    refine (ih fun y hy => h y (List.mem_cons_of_mem x hy)).bind fun as bs => given ?_
    rintro rfl
    exact pure fun s s' hk => ⟨rfl, hk⟩

theorem forM {f : γ → Act σ κ Unit} {f' : γ → Act τ ν Unit} {items : List γ}
    (h : ∀ x ∈ items, Together K (f x) (f' x) (fun _ _ => K) E) :
    Together K (items.forM f) (items.forM f') (fun _ _ => K) E := by
  induction items with
  | nil => exact pure fun _ _ => id
  | cons x items ih =>
    exact (h x List.mem_cons_self).bind fun _ _ => ih fun y hy => h y (List.mem_cons_of_mem x hy)

theorem foldlM {f : α → γ → Act σ κ α} {f' : α → γ → Act τ ν α} {items : List γ}
    (h : ∀ a, ∀ x ∈ items, Together K (f a x) (f' a x) (fun b b' s s' => b' = b ∧ K s s') E) (a : α) :
    Together K (items.foldlM f a) (items.foldlM f' a) (fun b b' s s' => b' = b ∧ K s s') E := by
  induction items generalizing a with
  | nil => exact pure fun s s' hk => ⟨rfl, hk⟩
  | cons x items ih =>
    rw [List.foldlM_cons, List.foldlM_cons]
    refine (h a x List.mem_cons_self).bind fun b b' => given ?_
    rintro rfl
    exact ih (fun a y hy => h a y (List.mem_cons_of_mem x hy)) b'

end Together

end Act

open Act

/-! ## Faults of the cache -/

/-- where the cache is asked -/
def Point.IsOfCache : Point → Prop
  | .cacheGet | .cacheSet | .cacheDelete => True
  | _ => False

instance (p : Point) : Decidable p.IsOfCache := by
  unfold Point.IsOfCache; cases p <;> infer_instance

/-- nothing but the cache fails on purpose, and it does not panic -/
def Fault.OfCache (fs : List Fault) : Prop := ∀ f ∈ fs, f.point.IsOfCache ∧ ∀ text, f.effect ≠ .panic text

theorem Fault.OfCache.of_nil {fs : List Fault} (h : fs = []) : OfCache fs := by
  subst h
  exact fun _ hf => absurd hf List.not_mem_nil

theorem Fault.OfCache.calm {fs : List Fault} (h : OfCache fs) : Calm fs := by
  intro text ht
  obtain ⟨f, hf, he⟩ := List.mem_map.1 ht
  exact (h f hf).2 text he

theorem Fault.OfCache.arrived {fs : List Fault} (h : OfCache fs) (p : Point) (after : Bool) :
    OfCache (arrive p after fs).2 := by
  intro f hf
  obtain ⟨g, hg, rfl⟩ := List.mem_map.1 hf
  unfold notice
  split <;> exact h g hg

theorem Fault.OfCache.unmet {fs : List Fault} (h : OfCache fs) {p : Point} (hp : ¬ p.IsOfCache) (after : Bool) :
    arrive p after fs = (none, fs) := by
  have away : ∀ f ∈ fs, f.isAt p after = false := by
    intro f hf
    refine decide_eq_false fun at_point => hp ?_
    exact at_point.1 ▸ (h f hf).1
  refine Prod.ext ?_ ?_
  · refine List.findSome?_eq_none_iff.2 fun f hf => ?_
    simp [effect?, away f hf]
  · refine (List.map_congr_left fun f hf => ?_).trans (List.map_id fs)
    simp [notice, away f hf]

/-! ## Sites near to others -/

variable {σ τ κ ν α β : Type}

/-- what has to do with the cache is as it was, and the clock will show the same -/
structure Untouched (s₀ s : Site σ κ) : Prop where
  cache : s.cache = s₀.cache
  cacheTtl : s.cacheTtl = s₀.cacheTtl
  faults : s.faults = s₀.faults
  readings : s.clock.readings = s₀.clock.readings

theorem Untouched.refl (s : Site σ κ) : Untouched s s := ⟨rfl, rfl, rfl, rfl⟩

theorem Untouched.trans {s₀ s₁ s₂ : Site σ κ} (h₁ : Untouched s₀ s₁) (h₂ : Untouched s₁ s₂) : Untouched s₀ s₂ :=
  ⟨h₂.cache.trans h₁.cache, h₂.cacheTtl.trans h₁.cacheTtl, h₂.faults.trans h₁.faults, h₂.readings.trans h₁.readings⟩

/-- Two sites after acts that did not ask the cache, begun on `s₀` and `s₀'`: they agree on the clock and on the events
counted, and `P` relates their stores. The clock shows only times that `time` allows. -/
structure Near (time : Instant → Prop) (s₀ : Site σ κ) (s₀' : Site τ ν) (P : σ → τ → Prop) (s : Site σ κ)
    (s' : Site τ ν) : Prop where
  clock : s'.clock = s.clock
  events : s'.metrics.events = s.metrics.events
  timely : ∀ n, time (s.clock.readings n)
  faults : Fault.OfCache s.faults
  faults' : Fault.OfCache s'.faults
  since : Untouched s₀ s
  since' : Untouched s₀' s'
  stores : P s.store s'.store

namespace Near

variable {time : Instant → Prop} {s₀ : Site σ κ} {s₀' : Site τ ν} {P Q : σ → τ → Prop} {E : σ → τ → Prop}
  {F : Site σ κ → Site τ ν → Prop}

theorem mono {s : Site σ κ} {s' : Site τ ν} (h : Near time s₀ s₀' P s s') (hP : ∀ m n, P m n → Q m n) :
    Near time s₀ s₀' Q s s' :=
  { h with stores := hP _ _ h.stores }

/-- from where it has come, it may begin again -/
theorem anew {s : Site σ κ} {s' : Site τ ν} (h : Near time s₀ s₀' P s s') : Near time s s' P s s' :=
  { h with since := .refl s, since' := .refl s' }

/-- The cache stays untouched on both sides, and the clocks and the events counted stay the same. -/
theorem moved {s s₁ : Site σ κ} {s' s₁' : Site τ ν} (h : Near time s₀ s₀' P s s') (left : Untouched s s₁)
    (right : Untouched s' s₁') (clock : s₁'.clock = s₁.clock) (events : s₁'.metrics.events = s₁.metrics.events)
    (stores : Q s₁.store s₁'.store) : Near time s₀ s₀' Q s₁ s₁' where
  clock := clock
  events := events
  timely n := left.readings ▸ h.timely n
  faults := left.faults ▸ h.faults
  faults' := right.faults ▸ h.faults'
  since := h.since.trans left
  since' := h.since'.trans right
  stores := stores

/-- the sites with other stores -/
theorem restored {s : Site σ κ} {s' : Site τ ν} (h : Near time s₀ s₀' P s s') {m : σ} {n : τ} (stores : Q m n) :
    Near time s₀ s₀' Q { s with store := m } { s' with store := n } :=
  h.moved ⟨rfl, rfl, rfl, rfl⟩ ⟨rfl, rfl, rfl, rfl⟩ h.clock h.events stores

/-! ### Basic acts -/

theorem readClock : Together (Near time s₀ s₀' P) Act.readClock Act.readClock
    (fun a b s s' => (b = a ∧ time a) ∧ Near time s₀ s₀' P s s') F := by
  intro s s' h
  refine ⟨.ok _, .ok _, _, _, rfl, rfl, .ok ⟨⟨by rw [h.clock], h.timely _⟩, ?_⟩⟩
  exact h.moved ⟨rfl, rfl, rfl, rfl⟩ ⟨rfl, rfl, rfl, rfl⟩ (congrArg Clock.advance h.clock) h.events h.stores

theorem newEventId : Together (Near time s₀ s₀' P) Act.newEventId Act.newEventId (fun _ _ => Near time s₀ s₀' P) F := by
  intro s s' h
  refine ⟨.ok _, .ok _, _, _, rfl, rfl, .ok ?_⟩
  exact h.moved ⟨rfl, rfl, rfl, rfl⟩ ⟨rfl, rfl, rfl, rfl⟩ h.clock h.events h.stores

theorem noteEvent (t : EventType) : Together (Near time s₀ s₀' P) (Act.noteEvent t) (Act.noteEvent t)
    (fun _ _ => Near time s₀ s₀' P) F := by
  intro s s' h
  refine ⟨.ok (), .ok (), _, _, rfl, rfl, .ok ?_⟩
  refine h.moved ⟨rfl, rfl, rfl, rfl⟩ ⟨rfl, rfl, rfl, rfl⟩ h.clock ?_ h.stores
  simp only [Metrics.countEvent, h.events]

/-- the sites with a refusal counted -/
theorem refused (e : Error) {s : Site σ κ} {s' : Site τ ν} (h : Near time s₀ s₀' P s s') :
    Near time s₀ s₀' P { s with metrics := s.metrics.countFailure e.code }
      { s' with metrics := s'.metrics.countFailure e.code } :=
  h.moved ⟨rfl, rfl, rfl, rfl⟩ ⟨rfl, rfl, rfl, rfl⟩ h.clock h.events h.stores

theorem noteFailure (e : Error) : Together (Near time s₀ s₀' P) (Act.noteFailure e) (Act.noteFailure e)
    (fun _ _ => Near time s₀ s₀' P) F :=
  fun _ _ h => ⟨.ok (), .ok (), _, _, rfl, rfl, .ok (h.refused e)⟩

theorem fail {Q : α → β → Site σ κ → Site τ ν → Prop} (e : Error) : Together (Near time s₀ s₀' E) (Act.fail e)
    (Act.fail e) Q (Near time s₀ s₀' E) :=
  fun _ _ h => ⟨.error e, .error e, _, _, rfl, rfl, .error (h.refused e)⟩

/-- Refusals are counted, which is not seen from outside. -/
theorem counted {K : Site σ κ → Site τ ν → Prop} {act : Act σ κ α} {act' : Act τ ν β}
    {Q : α → β → Site σ κ → Site τ ν → Prop} (h : Together K act act' Q (Near time s₀ s₀' E)) :
    Together K (Act.counted act) (Act.counted act') Q (Near time s₀ s₀' E) := by
  refine h.attempt.bind fun r r' => ?_
  intro s s' ends
  cases ends with
  | ok hq => exact ⟨.ok _, .ok _, s, s', rfl, rfl, .ok hq⟩
  | error he => exact fail _ s s' he

theorem arrive {p : Point} (hp : ¬ p.IsOfCache) (after : Bool) {s : Site σ κ} (h : Fault.OfCache s.faults) :
    Act.arrive p after s = (.ok false, s) := by
  rw [arrive_run, h.unmet hp]; rfl

/-- An operation on both stores. -/
theorem onStore {op : Instant → Access σ α} {op' : Instant → Access τ β} {Q : α → β → σ → τ → Prop}
    (h : ∀ now m n, time now → P m n → Match Q E (op now m).1 (op' now n).1 (op now m).2 (op' now n).2) :
    Together (Near time s₀ s₀' P) (Act.onStore op) (Act.onStore op') (fun a b => Near time s₀ s₀' (Q a b))
      (Near time s₀ s₀' E) := by
  intro s s' hs
  refine ⟨_, _, _, _, onStore_run op s, onStore_run op' s', ?_⟩
  have same : s'.clock.current = s.clock.current := by rw [hs.clock]
  rw [same]
  have stores := h s.clock.current s.store s'.store (hs.timely _) hs.stores
  generalize op s.clock.current s.store = x at stores
  generalize op' s.clock.current s'.store = y at stores
  obtain ⟨r, m⟩ := x
  obtain ⟨r', n⟩ := y
  cases stores with
  | ok hq => exact .ok (hs.restored hq)
  | error he => exact .error (hs.restored he)

/-- A call that faults of the cache do not reach. -/
theorem reachedAt {p : Point} (hp : ¬ p.IsOfCache) {act : Act σ κ α} {act' : Act τ ν β} {Q : α → β → σ → τ → Prop}
    (h : Together (Near time s₀ s₀' P) act act' (fun a b => Near time s₀ s₀' (Q a b)) (Near time s₀ s₀' E)) :
    Together (Near time s₀ s₀' P) (Act.reachedAt p act) (Act.reachedAt p act') (fun a b => Near time s₀ s₀' (Q a b))
      (Near time s₀ s₀' E) := by
  have met : ∀ {R : σ → τ → Prop} (after : Bool), Together (Near time s₀ s₀' R) (Act.arrive p after)
      (Act.arrive p after) (fun _ _ => Near time s₀ s₀' R) (Near time s₀ s₀' E) := fun after s s' hs =>
    ⟨.ok false, .ok false, s, s', arrive hp after hs.faults, arrive hp after hs.faults', .ok hs⟩
  refine (met false).bind fun _ _ => h.bind fun a b => ?_
  exact (met true).bind fun _ _ => .pure fun _ _ => id

theorem call {p : Point} (hp : ¬ p.IsOfCache) {op : Instant → Access σ α} {op' : Instant → Access τ β}
    {Q : α → β → σ → τ → Prop}
    (h : ∀ now m n, time now → P m n → Match Q E (op now m).1 (op' now n).1 (op now m).2 (op' now n).2) :
    Together (Near time s₀ s₀' P) (Act.reachedAt p (Act.onStore op)) (Act.reachedAt p (Act.onStore op'))
      (fun a b => Near time s₀ s₀' (Q a b)) (Near time s₀ s₀' E) :=
  reachedAt hp (onStore h)

end Near

end PickupPoint
