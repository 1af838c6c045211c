/-
Sessions on two stores at once.

Beside the stores there are the caches, and what relates these is left open: `Careful S K` says that the relation `K` of
two sites is kept by all that the service does, the histories that are still to be dropped in mind. Then every call keeps
it (`Careful.perform`), a call that changes orders has the same reply on both sides (`Careful.same_reply`), and a session
keeps it (`Careful.run`).
-/
import PickupPoint.Proofs.Accord
import PickupPoint.Proofs.Calls

namespace PickupPoint

open Act

variable {σ τ κ ν : Type}

/-- a call that may change orders -/
def Call.IsChange : Call → Prop
  | .accept .. | .reclaim .. | .process .. | .importAll .. => True
  | .list .. | .returns .. | .scroll .. | .history .. | .orderHistory .. | .get .. => False

/-- a call with nothing in it but what a simulation allows -/
def Simulation.Allows (S : Simulation σ τ) : Call → Prop
  | .accept a => S.takes a
  | .reclaim id | .orderHistory id | .get id => S.fits id
  | .process _ _ ids => ∀ id ∈ ids, S.fits id
  | .importAll records => ∀ a, .ok a ∈ records → S.takes a
  | .list .. | .returns .. | .scroll .. | .history .. => True

/-- every call of a session is allowed -/
def Simulation.AllowsAll (S : Simulation σ τ) (turns : List Turn) : Prop := ∀ c, .call c ∈ turns → S.Allows c

/-- What a relation of two sites has to bear, the histories in mind that are still to be dropped. -/
structure Careful [OrderStore σ] [OrderStore τ] [HistoryCache κ] [HistoryCache ν] (S : Simulation σ τ)
    (K : List Nat → Site σ κ → Site τ ν → Prop) : Prop where
  sound : S.Sound
  near {pending s s'} : K pending s s' → ∃ ids, Near S.time s s' (S.rest ids) s s'
  idle {pending ids s s' s₁ s₁'} : K pending s s' → Near S.time s s' (S.Still ids s.store s'.store) s₁ s₁' →
    K pending s₁ s₁'
  accepted {o} : S.stores o → o.status = .expects →
    Together (K []) (storeAccepted o) (storeAccepted o) (fun _ _ => K [o.id]) (K [])
  reclaimed {id} : S.fits id →
    Together (K []) (storeReclaimed id) (storeReclaimed id) (fun _ _ => K [id]) (K [])
  processed {userId action now} {ids : List Nat} : (∀ id ∈ ids, S.fits id) → S.time now →
    Together (K []) (transaction (ids.mapM (applyInBatch userId action now)))
      (transaction (ids.mapM (applyInBatch userId action now))) (fun x x' s s' => x' = x ∧ K (doneIds x) s s') (K [])
  dropped {id pending} :
    Together (K (id :: pending)) (dropHistory id) (dropHistory id) (fun _ _ => K pending) fun _ _ => False
  looked {id s s'} : S.fits id → K [] s s' → K [] (orderHistory id s).2 (orderHistory id s').2

namespace Careful

variable [OrderStore σ] [OrderStore τ] [HistoryCache κ] [HistoryCache ν] {S : Simulation σ τ}
  {K : List Nat → Site σ κ → Site τ ν → Prop} (h : Careful S K)

include h

/-- What leaves the stores still and does not ask the cache keeps every such relation. -/
theorem still {α β : Type} {act : Act σ κ α} {act' : Act τ ν β} {R : α → β → Prop} (pending : List Nat)
    (acts : ∀ ids s₀ s₀' m₀ n₀, Together (Near S.time s₀ s₀' (S.Still ids m₀ n₀)) act act'
      (fun a b s s' => R a b ∧ Near S.time s₀ s₀' (S.Still ids m₀ n₀) s s') (Near S.time s₀ s₀' (S.Still ids m₀ n₀))) :
    Together (K pending) act act' (fun a b s s' => R a b ∧ K pending s s') (K pending) := by
  intro s s' hk
  obtain ⟨ids, near⟩ := h.near hk
  have here : Near S.time s s' (S.Still ids s.store s'.store) s s' := { near with stores := ⟨near.stores, rfl, rfl⟩ }
  obtain ⟨r, r', s₁, s₁', hr, hr', ends⟩ := acts ids s s' s.store s'.store s s' here
  exact ⟨r, r', s₁, s₁', hr, hr', ends.mono (fun _ _ _ _ hq => ⟨hq.1, h.idle hk hq.2⟩) fun _ _ => h.idle hk⟩

/-- So does what is never refused. -/
theorem quiet {α β : Type} {act : Act σ κ α} {act' : Act τ ν β} {R : α → β → Prop} {pending : List Nat}
    {E : Site σ κ → Site τ ν → Prop}
    (acts : ∀ ids s₀ s₀' m₀ n₀, Together (Near S.time s₀ s₀' (S.Still ids m₀ n₀)) act act'
      (fun a b s s' => R a b ∧ Near S.time s₀ s₀' (S.Still ids m₀ n₀) s s') fun _ _ => False) :
    Together (K pending) act act' (fun a b s s' => R a b ∧ K pending s s') E := by
  intro s s' hk
  obtain ⟨ids, near⟩ := h.near hk
  have here : Near S.time s s' (S.Still ids s.store s'.store) s s' := { near with stores := ⟨near.stores, rfl, rfl⟩ }
  obtain ⟨r, r', s₁, s₁', hr, hr', ends⟩ := acts ids s s' s.store s'.store s s' here
  exact ⟨r, r', s₁, s₁', hr, hr', ends.mono (fun _ _ _ _ hq => ⟨hq.1, h.idle hk hq.2⟩) fun _ _ => False.elim⟩

theorem noteFailure {pending : List Nat} {E : Site σ κ → Site τ ν → Prop} (e : Error) :
    Together (K pending) (Act.noteFailure e) (Act.noteFailure e) (fun _ _ => K pending) E :=
  (h.quiet (R := fun _ _ => True) fun _ _ _ _ _ => (Near.noteFailure e).weaken fun _ _ _ _ near =>
    ⟨trivial, near⟩).weaken fun _ _ _ _ => And.right

theorem noteEvent {pending : List Nat} {E : Site σ κ → Site τ ν → Prop} (t : EventType) :
    Together (K pending) (Act.noteEvent t) (Act.noteEvent t) (fun _ _ => K pending) E :=
  (h.quiet (R := fun _ _ => True) fun _ _ _ _ _ => (Near.noteEvent t).weaken fun _ _ _ _ near =>
    ⟨trivial, near⟩).weaken fun _ _ _ _ => And.right

/-! ## Calls -/

theorem drop {id : Nat} {pending : List Nat} {E : Site σ κ → Site τ ν → Prop} :
    Together (K (id :: pending)) (dropHistory id) (dropHistory id) (fun _ _ => K pending) E :=
  h.dropped.mono (fun _ _ hk => hk) (fun _ _ _ _ hk => hk) fun _ _ => False.elim

theorem dropAll (ids : List Nat) {E : Site σ κ → Site τ ν → Prop} :
    Together (K ids) (ids.forM dropHistory) (ids.forM dropHistory) (fun _ _ => K []) E := by
  induction ids with
  | nil => exact .pure fun _ _ hk => hk
  | cons id ids ih => exact h.drop.bind fun _ _ => ih

theorem accept {a : Acceptance} (takes : S.takes a) :
    Together (K []) (accept a) (accept a) (fun o o' s s' => o' = o ∧ K [] s s') (K []) := by
  refine (h.still _ fun ids s₀ s₀' m₀ n₀ => h.sound.checkAcceptance_still takes).bind fun o o' => .given ?_
  rintro ⟨rfl, stores, new⟩
  refine (h.accepted stores new).bind fun _ _ => h.drop.bind fun _ _ => ?_
  exact .pure fun _ _ hk => ⟨rfl, hk⟩

theorem reclaim {id : Nat} (fits : S.fits id) :
    Together (K []) (reclaim id) (reclaim id) (fun r r' s s' => r' = r ∧ K [] s s') (K []) := by
  refine (h.reclaimed fits).bind fun _ _ => h.drop.bind fun _ _ => ?_
  exact .pure fun _ _ hk => ⟨rfl, hk⟩

theorem importRecord (r : ImportResult) {record : Except RejectedRecord Acceptance}
    (takes : ∀ a, record = .ok a → S.takes a) {E : Site σ κ → Site τ ν → Prop} :
    Together (K []) (importRecord r record) (importRecord r record) (fun x x' s s' => x' = x ∧ K [] s s') E := by
  cases record with
  | ok a =>
    refine (h.accept (takes a rfl)).attempt.bind fun r r' => .matched ?_ ?_
    · rintro o o' rfl rfl
      exact .given fun _ => .pure fun _ _ hk => ⟨rfl, hk⟩
    · rintro e rfl rfl
      exact .pure fun _ _ hk => ⟨rfl, hk⟩
  | error rejected => exact (h.noteFailure rejected.cause).bind fun _ _ => .pure fun _ _ hk => ⟨rfl, hk⟩

theorem importAll {records : List (Except RejectedRecord Acceptance)} (takes : ∀ a, .ok a ∈ records → S.takes a) :
    Together (K []) (importAll records) (importAll records) (fun x x' s s' => x' = x ∧ K [] s s') (K []) :=
  .foldlM (fun r _ hr => h.importRecord r fun _ ha => takes _ (ha ▸ hr)) ImportResult.none

theorem process {userId : Nat} {action : Action} {ids : List Nat} (fits : ∀ id ∈ ids, S.fits id) :
    Together (K []) (process userId action ids) (process userId action ids) (fun x x' s s' => x' = x ∧ K [] s s')
      (K []) := by
  refine (h.quiet fun _ _ _ _ _ => Near.readClock).bind fun now now' => .given ?_
  rintro ⟨rfl, time⟩
  refine (h.processed fits time).attempt.bind fun r r' => .matched ?_ ?_
  · rintro outcomes outcomes' rfl rfl
    refine .given ?_
    rintro rfl
    have noted : Together (K (doneIds outcomes')) (noteBatch outcomes') (noteBatch outcomes')
        (fun _ _ => K (doneIds outcomes')) (K []) := .forM fun t _ => h.noteEvent t
    refine noted.bind fun _ _ => (h.dropAll (doneIds outcomes')).bind fun _ _ => ?_
    exact .pure fun _ _ hk => ⟨rfl, hk⟩
  · rintro e rfl rfl
    exact (h.noteFailure e).bind fun _ _ => .pure fun _ _ hk => ⟨rfl, hk⟩

omit h [OrderStore σ] [OrderStore τ] [HistoryCache κ] [HistoryCache ν] in
/-- an answer told as a reply -/
theorem told {α : Type} {act : Act σ κ α} {act' : Act τ ν α} {f : α → Reply}
    (acts : Together (K []) act act' (fun a b s s' => b = a ∧ K [] s s') (K [])) :
    Together (K []) (do return f (← act)) (do return f (← act')) (fun r r' s s' => r' = r ∧ K [] s s') (K []) :=
  acts.bind fun _ _ => .given fun same => .pure fun _ _ hk => ⟨congrArg f same, hk⟩

/-- A call that changes orders has one reply. -/
theorem change {c : Call} (change : c.IsChange) (allowed : S.Allows c) :
    Together (K []) c.perform c.perform (fun r r' s s' => r' = r ∧ K [] s s') (K []) := by
  cases c with
  | accept a => exact told (h.accept allowed)
  | reclaim id => exact told (h.reclaim allowed)
  | process userId action ids => exact told (h.process allowed)
  | importAll records => exact told (h.importAll allowed)
  | list | returns | scroll | history | orderHistory | get => cases change

/-- A question leaves all as it was. -/
theorem question {c : Call} (question : c.IsQuestion) (allowed : S.Allows c) :
    Together (K []) c.perform c.perform (fun _ _ => K []) (K []) := by
  cases c with
  | list userId inPickupPoint last page limit =>
    exact (h.still _ fun _ _ _ _ _ => (h.sound.listOrders_still userId inPickupPoint last page limit).weaken
      fun _ _ _ _ hq => ⟨trivial, hq.2⟩).bind fun _ _ => .given fun _ => .pure fun _ _ hk => hk
  | returns page limit =>
    exact (h.still _ fun _ _ _ _ _ => (h.sound.listReturns_still page limit).weaken
      fun _ _ _ _ hq => ⟨trivial, hq.2⟩).bind fun _ _ => .given fun _ => .pure fun _ _ hk => hk
  | scroll userId cursor limit =>
    exact (h.still _ fun _ _ _ _ _ => (h.sound.scrollOrders_still userId cursor limit).weaken
      fun _ _ _ _ hq => ⟨trivial, hq.2⟩).bind fun _ _ => .given fun _ => .pure fun _ _ hk => hk
  | history page count =>
    exact (h.still _ fun _ _ _ _ _ => h.sound.historyPage_still page count).bind fun _ _ => .given fun _ =>
      .pure fun _ _ hk => hk
  | get id =>
    exact (h.still _ fun _ _ _ _ _ => h.sound.getOrder_still allowed).bind fun _ _ => .given fun _ =>
      .pure fun _ _ hk => hk
  | accept | reclaim | process | importAll | orderHistory => cases question

/-! ## Sessions -/

omit h [OrderStore σ] [OrderStore τ] [HistoryCache κ] [HistoryCache ν] in
/-- Acts that come to the same, and to sites that are still related. -/
theorem same {α : Type} {act : Act σ κ α} {act' : Act τ ν α}
    (acts : Together (K []) act act' (fun a b s s' => b = a ∧ K [] s s') (K [])) {s : Site σ κ} {s' : Site τ ν}
    (hk : K [] s s') : (act' s').1 = (act s).1 ∧ K [] (act s).2 (act' s').2 := by
  obtain ⟨r, r', s₁, s₁', hr, hr', ends⟩ := acts s s' hk
  rw [hr, hr']
  cases ends with
  | ok hq => exact ⟨congrArg _ hq.1, hq.2⟩
  | error he => exact ⟨rfl, he⟩

/-- A change has the same reply on both sides. -/
theorem same_reply {c : Call} (change : c.IsChange) (allowed : S.Allows c) {s : Site σ κ} {s' : Site τ ν}
    (hk : K [] s s') : (c.perform s').1 = (c.perform s).1 :=
  (same (h.change change allowed) hk).1

theorem perform {c : Call} (allowed : S.Allows c) {s : Site σ κ} {s' : Site τ ν} (hk : K [] s s') :
    K [] (c.perform s).2 (c.perform s').2 := by
  have asked : c.IsQuestion → K [] (c.perform s).2 (c.perform s').2 := fun question => by
    obtain ⟨r, r', s₁, s₁', hr, hr', ends⟩ := h.question question allowed s s' hk
    rw [hr, hr']
    cases ends with
    | ok hq => exact hq
    | error he => exact he
  have changed : c.IsChange → K [] (c.perform s).2 (c.perform s').2 := fun change =>
    (same (h.change change allowed) hk).2
  cases c with
  | accept | reclaim | process | importAll => exact changed trivial
  | list | returns | scroll | history | get => exact asked trivial
  | orderHistory id =>
    have looked := h.looked allowed hk
    show K [] ((do return .history (← orderHistory id) : Act σ κ Reply) s).2
      ((do return .history (← orderHistory id) : Act τ ν Reply) s').2
    rw [bind_run, bind_run]
    rcases hr : orderHistory id s with ⟨_ | _, s₁⟩ <;> rcases hr' : orderHistory id s' with ⟨_ | _, s₁'⟩ <;>
      rw [hr, hr'] at looked <;> exact looked

theorem step {t : Turn} (allowed : ∀ c, t = .call c → S.Allows c) {s : Site σ κ} {s' : Site τ ν} (hk : K [] s s') :
    K [] (t.step s) (t.step s') := by
  cases t with
  | call c => exact h.perform (allowed c rfl) hk
  | wait =>
    obtain ⟨ids, near⟩ := h.near hk
    refine h.idle hk (near.moved (Q := S.Still ids s.store s'.store) ⟨rfl, rfl, rfl, rfl⟩ ⟨rfl, rfl, rfl, rfl⟩ ?_
      near.events ⟨near.stores, rfl, rfl⟩)
    exact congrArg Clock.advance near.clock

/-- Whatever is done on both sides, they stay related. -/
theorem run {turns : List Turn} (allowed : S.AllowsAll turns) {s : Site σ κ} {s' : Site τ ν} (hk : K [] s s') :
    K [] (Turn.run s turns) (Turn.run s' turns) := by
  induction turns generalizing s s' with
  | nil => exact hk
  | cons t turns ih =>
    refine ih (fun c hc => allowed c (List.mem_cons_of_mem t hc)) (h.step (fun c hc => ?_) hk)
    exact allowed c (hc ▸ List.mem_cons_self)

end Careful

end PickupPoint
