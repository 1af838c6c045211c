/-
What a whole call does to the store and to the cache, and sessions of calls.

A call that reads no history drops from the cache the history of every order that it changes, and puts nothing there
(`Course`). A call that reads a history changes nothing in the store; it answers what is stored, or what the cache holds
and is still due, and puts nothing into the cache but what is stored (`Looked`).

In a session calls are performed one after the other, and time may pass in between (`Turn`). What is said of a call
holds whatever faults are set; where none are, a look finds what there is.
-/
import PickupPoint.Proofs.HistoryText
import PickupPoint.Proofs.Steps

namespace PickupPoint

open Act LawfulCache

variable {κ : Type}

/-! ## Calls alone -/

theorem map_run {σ α β : Type} (act : Act σ κ α) (f : α → β) (s : Site σ κ) :
    (do return f (← act) : Act σ κ β) s = ((act s).1.map f, (act s).2) := by
  rw [bind_run]
  rcases act s with ⟨_ | _, _⟩ <;> rfl

theorem of_map_run {σ α β : Type} {act : Act σ κ α} {f : α → β} {b : β} {s s' : Site σ κ}
    (h : (do return f (← act) : Act σ κ β) s = (.ok b, s')) : ∃ a, act s = (.ok a, s') ∧ b = f a := by
  rw [map_run] at h
  rcases run : act s with ⟨halt | a, t⟩ <;> rw [run] at h <;> cases h
  exact ⟨a, rfl, rfl⟩

section Alone

variable [HistoryCache κ]

namespace Progress

/-- What every step keeps, the call keeps that these are the steps of. -/
theorem performs {I : Progress → Site Memory κ → Prop} (hI : ∀ p s, I p s → I (p.step s).1 (p.step s).2) {c : Call}
    {s : Site Memory κ} (h : I (start c) s) : I (.ended (c.perform s).1) (c.perform s).2 := by
  have kept : ∀ n, I ((fun x : Progress × Site Memory κ => x.1.step x.2)^[n] (start c, s)).1
      ((fun x : Progress × Site Memory κ => x.1.step x.2)^[n] (start c, s)).2 := by
    intro n
    induction n with
    | zero => exact h
    | succ n ih => rw [Function.iterate_succ_apply']; exact hI _ _ ih
  obtain ⟨n, hn⟩ := finishes_start c s
  have last := kept n
  rw [hn, rest_start] at last
  exact last

end Progress

/-- A lasting law holds of a whole call, if it does not tell how the call halts. -/
theorem perform_obeys (R : Law Memory κ) [Lasting R] (loose : ∀ {s s' h}, R s h s' → R s none s') (c : Call)
    (s : Site Memory κ) : R s none (c.perform s).2 := by
  have kept := Progress.performs (I := fun p s' => p.Sound ∧ R s none s') (c := c) (s := s)
    (fun p s' ⟨sound, law⟩ => by
      obtain ⟨sound', _, law'⟩ := step_obeys R sound s'
      exact ⟨sound', loose (Composes.comp law law')⟩) ⟨sound_start c, Frame.silent (Silent.refl s)⟩
  exact kept.2

theorem perform_dated (c : Call) (s : Site Memory κ) : Dated s none (c.perform s).2 :=
  perform_obeys Dated (fun h => { h with }) c s

theorem perform_orderHistory (id : Nat) (s : Site Memory κ) :
    (Call.orderHistory id).perform s = ((orderHistory id s).1.map .history, (orderHistory id s).2) :=
  map_run ..

/-! ## Sessions -/

inductive Turn where
  | call (c : Call)
  /-- time passes -/
  | wait

namespace Turn

section

variable {σ : Type} [OrderStore σ]

def step (s : Site σ κ) : Turn → Site σ κ
  | .call c => c.step s
  | .wait => { s with clock := s.clock.advance }

/-- the site after a session -/
def run (s : Site σ κ) (turns : List Turn) : Site σ κ := turns.foldl step s

theorem run_append (s : Site σ κ) (turns more : List Turn) : run s (turns ++ more) = run (run s turns) more :=
  List.foldl_append ..

theorem run_concat (s : Site σ κ) (turns : List Turn) (t : Turn) : run s (turns ++ [t]) = step (run s turns) t :=
  run_append s turns [t]

end

theorem run_obeys (R : Law Memory κ) [Lasting R] (loose : ∀ {s s' h}, R s h s' → R s none s') (turns : List Turn)
    (s : Site Memory κ) : R s none (run s turns) := by
  induction turns generalizing s with
  | nil => exact Frame.silent (Silent.refl s)
  | cons t turns ih =>
    have first : R s none (step s t) := by
      cases t with
      | call c => exact perform_obeys R loose c s
      | wait => exact Lasting.idle ⟨rfl, Nat.le_succ _, rfl, rfl, rfl⟩
    exact Composes.comp first (ih (step s t))

theorem run_dated (turns : List Turn) (s : Site Memory κ) : Dated s none (run s turns) :=
  run_obeys Dated (fun h => { h with }) turns s

theorem run_grows (turns : List Turn) (s : Site Memory κ) : ∃ cs, s.store.Changed cs (run s turns).store :=
  run_obeys Grows (fun h => h) turns s

/-- The histories of a session that began on an empty store read back from their text. -/
theorem run_decodes {s : Site Memory κ} (empty : s.store = .empty) (proper : ∀ n, (s.clock.readings n).Proper)
    (turns : List Turn) (id : Nat) {h : List HistoryEntry}
    (read : historyOfText? (historyText ((run s turns).store.orderHistory id)) = some h) :
    h = (run s turns).store.orderHistory id := by
  have stored : ∀ e ∈ (run s turns).store.orderHistory id, e.createdAt.Proper := by
    intro e he
    rcases (run_dated turns s).entries e (List.mem_filter.1 he).1 with old | ⟨n, hn⟩
    · rw [empty] at old; exact absurd old List.not_mem_nil
    · rw [hn]; exact proper n
  exact eq_of_historyText stored read

end Turn

end Alone

/-! ## Calls that read no history -/

variable [HistoryCache κ] [LawfulCache κ]

theorem Progress.Still.may {p : Progress} (still : p.Still) {c : Change} (may : p.May c) (o : Order) :
    c ≠ .accept o := by
  rintro rfl
  cases p <;> first | exact still | exact may

/-- how far a call has come that reads no history: it stood at `p₀` on `s₀`, and stands at `p` on `s` -/
structure Course (p₀ : Progress) (s₀ : Site Memory κ) (p : Progress) (s : Site Memory κ) : Prop where
  sound : p.Sound
  reads : p.reads? = none
  still : p₀.Still → p.Still
  holds : ∀ e, Holds s.cache e → Holds s₀.cache e
  /-- the history of every order that has changed is not in the cache, or is still to be dropped -/
  changed : ∃ cs, s₀.store.Changed cs s.store ∧ (p₀.Still → ∀ c ∈ cs, ∀ o, c ≠ .accept o) ∧
    (Fair s₀ → Fair s ∧ ∀ c ∈ cs, c.orderId ∈ p.drops ∨ ∀ e, Holds s.cache e → e.key ≠ cacheKey c.orderId)

theorem Course.start {c : Call} (reads : (Progress.start c).reads? = none) (s : Site Memory κ) :
    Course (Progress.start c) s (Progress.start c) s :=
  ⟨sound_start c, reads, id, fun _ he => he, [], .nil _, fun _ _ hc => absurd hc List.not_mem_nil,
    fun fair => ⟨fair, fun _ hc => absurd hc List.not_mem_nil⟩⟩

theorem Course.step {p₀ p : Progress} {s₀ s : Site Memory κ} (h : Course p₀ s₀ p s) :
    Course p₀ s₀ (p.step s).1 (p.step s).2 := by
  have sound : (p.step s).1.Sound := (step_grows h.sound s).1
  obtain ⟨cs, changed, none, fair⟩ := h.changed
  rcases hd : p.drops with _ | ⟨id, rest⟩
  · -- nothing is pending, so what had changed is dropped, and the cache stays as it is
    have worked := working_step h.sound hd h.reads s
    obtain ⟨ds, added, may⟩ := worked.changed
    have cache := worked.kept.cache
    refine ⟨sound, worked.reads, fun still => worked.still (h.still still), fun e he => h.holds e (cache ▸ he),
      cs ++ ds, changed.append added, fun still c hc => ?_, fun fair₀ => ?_⟩
    · rcases List.mem_append.1 hc with hc | hc
      · exact none still c hc
      · exact (h.still still).may (may c hc).2
    · obtain ⟨fair₁, dropped⟩ := fair fair₀
      refine ⟨fair₁.kept worked.kept, fun c hc => ?_⟩
      rcases List.mem_append.1 hc with hc | hc
      · rcases dropped c hc with pending | gone
        · rw [hd] at pending; exact absurd pending List.not_mem_nil
        · exact .inr fun e he => gone e (cache ▸ he)
      · exact .inl (may c hc).1
  · -- one history fewer is pending, and it is in the cache no more
    have dropped := dropping_step hd s
    refine ⟨sound, dropped.reads, fun still => dropped.still (h.still still),
      fun e he => h.holds e (dropped.holds e he), cs, dropped.store ▸ changed, none, fun fair₀ => ?_⟩
    obtain ⟨fair₁, pending⟩ := fair fair₀
    obtain ⟨left, fair₂, gone⟩ := dropped.fair fair₁
    refine ⟨fair₂, fun c hc => ?_⟩
    rcases pending c hc with pending | away
    · rw [hd] at pending
      rcases List.mem_cons.1 pending with hid | pending
      · exact .inr (hid ▸ gone)
      · exact .inl (left ▸ pending)
    · exact .inr fun e he => away e (dropped.holds e he)

/-- what a call comes to that reads no history -/
theorem course_ends {c : Call} (reads : (Progress.start c).reads? = none) (s : Site Memory κ) :
    Course (Progress.start c) s (.ended (c.perform s).1) (c.perform s).2 :=
  Progress.performs (fun _ _ h => h.step) (Course.start reads s)

/-! ## Calls that read a history -/

/-- what a look at the history of an order comes to -/
structure Looked (id : Nat) (s : Site Memory κ) (r : Except Halt (List HistoryEntry)) (s' : Site Memory κ) : Prop where
  clock : s'.clock = s.clock
  store : s'.store = s.store
  cacheTtl : s'.cacheTtl = s.cacheTtl
  holds : ∀ e, Holds s'.cache e → Holds s.cache e ∨
    (s.store.orderHistory id ≠ [] ∧ e = keptEntry id (s.store.orderHistory id) s)
  answer : ∀ h, r = .ok h → (h = s.store.orderHistory id ∧ h ≠ []) ∨
    ∃ e, Holds s.cache e ∧ e.key = cacheKey id ∧ s.clock.current < e.expiresAt ∧ historyOfText? e.value = some h
  fair : Fair s → Fair s' ∧ (Counts κ s.cacheTtl s.clock.current →
    (∃ h, r = .ok h) ∨ (s.store.orderHistory id = [] ∧ r = .error (.error .orderNotFound)))

/-- a look at the store, after the cache did not answer -/
theorem recorded_looked (id : Nat) (s : Site Memory κ) :
    ∃ r s', (do let history ← recordedHistory id; keepHistory id history; return history : Act Memory κ _) s = (r, s') ∧
      Looked id s r s' := by
  obtain ⟨fs, m, read, hr, found, sure⟩ := recordedHistory_run id s
  rw [bind_run, hr]
  rcases read with halt | history
  · refine ⟨.error halt, _, rfl, rfl, rfl, rfl, fun _ he => .inl he, nofun, fun fair => ?_⟩
    obtain ⟨hfs, hk⟩ := sure fair.faultless
    refine ⟨⟨hfs, fair.serves⟩, fun _ => .inr ?_⟩
    unfold known at hk
    split_ifs at hk with hnone
    cases hk
    exact ⟨hnone, rfl⟩
  · obtain ⟨rfl, some⟩ : history = s.store.orderHistory id ∧ s.store.orderHistory id ≠ [] := by
      rcases found with hk | ⟨_, hk⟩
      · unfold known at hk
        split_ifs at hk with hnone
        cases hk
        exact ⟨rfl, hnone⟩
      · cases hk
    obtain ⟨gs, c, kept, hk, holds, fair⟩ :=
      keepHistory_run id (s.store.orderHistory id) { s with faults := fs, metrics := m }
    dsimp only
    rw [bind_run, hk]
    refine ⟨kept.map fun _ => s.store.orderHistory id, { s with metrics := m, faults := gs, cache := c }, ?_, rfl, rfl,
      rfl, fun e he => (holds e he).imp_right fun h => ⟨some, h⟩, fun h hh => ?_, fun fair₀ => ?_⟩
    · cases kept <;> rfl
    · cases kept <;> cases hh
      exact .inl ⟨rfl, some⟩
    · obtain ⟨hgs, serves, done⟩ := fair ⟨(sure fair₀.faultless).1, fair₀.serves⟩
      exact ⟨⟨hgs, serves⟩, fun counts => .inl ⟨_, by rw [done counts]; rfl⟩⟩

theorem orderHistory_looked (id : Nat) (s : Site Memory κ) :
    Looked id s (orderHistory id s).1 (orderHistory id s).2 := by
  obtain ⟨fs, c, r, hr, holds, recalled, fair⟩ := cachedHistory_run id s
  unfold orderHistory
  rw [bind_run, hr]
  cases recalled with
  | panicked text =>
    exact ⟨rfl, rfl, rfl, fun e he => .inl (holds e he), nofun, fun h => nomatch (fair h).2.2⟩
  | @found e h held key due read =>
    refine ⟨rfl, rfl, rfl, fun e he => .inl (holds e he), fun _ ha => ?_, fun h => ?_⟩
    · cases ha
      exact .inr ⟨e, held, key, due, read⟩
    · obtain ⟨hfs, serves, -⟩ := fair h
      exact ⟨⟨hfs, serves⟩, fun _ => .inl ⟨_, rfl⟩⟩
  | missed =>
    obtain ⟨r, s', hrest, looked⟩ := recorded_looked id { s with faults := fs, cache := c }
    dsimp only
    rw [hrest]
    refine ⟨looked.clock, looked.store, looked.cacheTtl, fun e he => (looked.holds e he).imp_left (holds e),
      fun h ha => (looked.answer h ha).imp_right ?_, fun h => ?_⟩
    · rintro ⟨e, held, rest⟩
      exact ⟨e, holds e held, rest⟩
    · obtain ⟨hfs, serves, -⟩ := fair h
      exact looked.fair ⟨hfs, serves⟩

/-! ## Where sessions begin -/

/-- Nothing is stored, the cache holds nothing, and no fault is set. -/
structure Fresh {κ : Type} (none : κ) (s : Site Memory κ) : Prop where
  store : s.store = .empty
  cache : s.cache = none
  faultless : s.faults = []
  proper : ∀ n, (s.clock.readings n).Proper

/-- a shelf without parcels, and a clock that stops after a while -/
def opening {κ : Type} (cache : κ) : Site Memory κ where
  clock := ⟨fun n => ⟨min n 100, 0⟩, 0⟩
  eventIds := 0
  store := .empty
  cache := cache
  cacheTtl := 60
  metrics := .empty
  faults := []

theorem opening_fresh {κ : Type} (none : κ) : Fresh none (opening none) :=
  ⟨rfl, rfl, rfl, fun _ => .inl (Nat.zero_lt_succ _)⟩

theorem opening_counts (n : Nat) : ((opening TimedCache.empty).clock.readings n).second +
    (opening TimedCache.empty).cacheTtl ≤ TimedCache.lastSecond := by
  have early : min (n : Int) 100 + 60 ≤ 100 + 60 := Int.add_le_add_right (Int.min_le_right _ _) 60
  exact Int.le_trans early (by decide)

/-- a parcel without packing for client 7 -/
def lightParcel : Acceptance := ⟨1, 7, 1, .ofNat 10, ⟨3600, 0⟩, "none"⟩

end PickupPoint
