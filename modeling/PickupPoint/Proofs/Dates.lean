/-
When entries of the history are written.

`Dated` is the law of acts that write entries only under a time that the clock shows, whatever faults are set and
however they end; the clock never goes back by a reading. All that calls do is of this kind, so it is a lasting law.
-/
import PickupPoint.Proofs.Runs

namespace PickupPoint

open Act

variable {κ α β : Type} {s : Site Memory κ}

/-- entries that are new have a time that the clock shows -/
structure Dated (s : Site Memory κ) (_ : Option Halt) (s' : Site Memory κ) : Prop where
  readings : s'.clock.readings = s.clock.readings
  taken : s.clock.taken ≤ s'.clock.taken
  cacheTtl : s'.cacheTtl = s.cacheTtl
  effects : Fault.effects s'.faults = Fault.effects s.faults
  entries : ∀ e ∈ s'.store.history, e ∈ s.store.history ∨ ∃ n, e.createdAt = s.clock.readings n

theorem Idle.dated {s s' : Site Memory κ} {h : Option Halt} (hi : Idle s h s') : Dated s h s' :=
  ⟨hi.readings, hi.taken, hi.cacheTtl, hi.effects, fun _ he => .inl (hi.store ▸ he)⟩

instance : Frame (@Dated κ) where
  comp h₁ h₂ := by
    refine ⟨h₂.readings.trans h₁.readings, Nat.le_trans h₁.taken h₂.taken, h₂.cacheTtl.trans h₁.cacheTtl,
      h₂.effects.trans h₁.effects, fun e he => ?_⟩
    rcases h₂.entries e he with he | ⟨n, hn⟩
    · exact h₁.entries e he
    · exact .inr ⟨n, h₁.readings ▸ hn⟩
  silent h := Idle.dated (Frame.silent h)
  attempt h := { h with }

/-- What is undone leaves no entries. -/
theorem Dated.undone {s s' : Site Memory κ} {h : Option Halt} (hd : Dated s h s') :
    Dated s h { s' with store := s.store } :=
  { hd with entries := fun _ he => .inl he }

theorem Dated.arrive (p : Point) (after : Bool) (s : Site Memory κ) :
    Dated s (halt? (arrive p after s).1) (arrive p after s).2 := by
  have within := Within.arrive p after s
  refine ⟨within.readings, within.taken, within.cacheTtl, within.effects, fun e he => .inl ?_⟩
  rw [arrive_run] at he
  exact he

theorem arrive_dated (p : Point) (after : Bool) : Obeys Dated (arrive p after) s fun _ m => m = s.store :=
  ⟨Dated.arrive p after s, fun _ _ => by rw [arrive_run]⟩

theorem Act.Obeys.dated {act : Act Memory κ α} {P : α → Memory → Prop} (h : Obeys Idle act s P) :
    Obeys Dated act s fun _ _ => True :=
  (h.weaken Idle.dated).mono fun _ _ _ => trivial

/-! ## Calls of the store -/

/-- a call whose new entries have the time it is told -/
theorem call_dated {p : Point} (hp : p ≠ .commit) {op : Instant → Access Memory α}
    (hop : ∀ now m, ∀ e ∈ (op now m).2.history, e ∈ m.history ∨ e.createdAt = now) :
    Obeys Dated (reachedAt p (onStore op)) s fun _ _ => True := by
  refine Obeys.reachedAt hp fun s' _ => ⟨?_, fun _ _ => trivial⟩
  rw [onStore_run]
  exact ⟨rfl, Nat.le_refl _, rfl, rfl, fun e he => (hop _ _ e he).imp_right fun h => ⟨s'.clock.taken, h⟩⟩

theorem findOrder_dated (id : Nat) : Obeys Dated (findOrder id) s fun _ _ => True :=
  call_dated (by decide) fun _ m e he => .inl (Memory.find_snd id m ▸ he)

theorem insertNew_dated (o : Order) : Obeys Dated (insertNew o) s fun _ _ => True := by
  have inserted : Obeys Dated (insertOrder o) s fun _ _ => True := by
    refine call_dated (by decide) fun _ m e he => .inl ?_
    change e ∈ (Memory.insert o m).2.history at he
    unfold Memory.insert at he
    split at he <;> exact he
  refine inserted.attempt.bind fun r s₁ _ _ => ?_
  split
  · exact Obeys.pure trivial
  · exact Obeys.refuse _
  · exact Obeys.refuse _

theorem updateOrder_dated (o : Order) : Obeys Dated (updateOrder o) s fun _ _ => True := by
  refine call_dated (by decide) fun _ m e he => .inl ?_
  change e ∈ (Memory.update o m).2.history at he
  unfold Memory.update at he
  split at he <;> exact he

theorem deleteOrder_dated (id : Nat) : Obeys Dated (deleteOrder id) s fun _ _ => True := by
  refine call_dated (by decide) fun _ m e he => .inl ?_
  change e ∈ (Memory.delete id m).2.history at he
  unfold Memory.delete at he
  split at he <;> exact he

theorem appendHistory_dated (id : Nat) (status : Status) : Obeys Dated (appendHistory id status) s fun _ _ => True := by
  refine call_dated (by decide) fun now m e he => ?_
  rcases List.mem_append.1 he with he | he
  · exact .inl he
  · rw [List.mem_singleton.1 he]; exact .inr rfl

theorem appendEvent_dated (t : EventType) (actor : Actor) (o : Order) (status : Status) :
    Obeys Dated (appendEvent t actor o status) s fun _ _ => True := by
  refine Obeys.newEventId.bind fun id s₁ _ _ => Obeys.readClock.bind fun time s₂ _ _ => ?_
  exact call_dated (by decide) fun _ m e he => .inl he

/-! ## Scopes -/

theorem savepoint_dated {act : Act Memory κ α} (h : ∀ s, Obeys Dated act s fun _ _ => True) :
    Obeys Dated (savepoint act) s fun _ _ => True := by
  refine ⟨?_, fun _ _ => trivial⟩
  have opened := Dated.arrive .txSavepoint false s
  have same : (arrive .txSavepoint false s).2.store = s.store := by rw [arrive_run]
  rw [savepoint_run]
  rcases hb : arrive .txSavepoint false s with ⟨_ | (_ | _), s₁⟩ <;> rw [hb] at opened same
  · exact opened
  · have worked := ((h s₁).closedAt true (p := .txSavepoint) (by decide)).law
    dsimp only
    rcases hw : closedAt .txSavepoint true act s₁ with ⟨(e | text) | a, s₂⟩ <;> rw [hw] at worked
    · exact Composes.comp opened worked.undone
    · exact Composes.comp opened worked
    · exact Composes.comp opened worked
  · exact opened

theorem transaction_dated {act : Act Memory κ α} (h : ∀ s, Obeys Dated act s fun _ _ => True) :
    Obeys Dated (transaction act) s fun _ _ => True := by
  refine ⟨?_, fun _ _ => trivial⟩
  have opened := Dated.arrive .begin false s
  rw [transaction_run]
  rcases hb : arrive .begin false s with ⟨_ | _, s₁⟩ <;> rw [hb] at opened
  · exact opened
  · have worked : Obeys Dated (closedAt .commit false act) s₁ fun _ _ => True :=
      (h s₁).bind fun _ s₂ _ _ => (arrive_dated .commit false).bind fun _ _ _ _ => Obeys.pure trivial
    have law := worked.law
    dsimp only
    rcases hw : closedAt .commit false act s₁ with ⟨halt | a, s₂⟩ <;> rw [hw] at law
    · exact Composes.comp opened law.undone
    · exact Composes.comp opened law

/-- a transaction whose refusal is counted, and its event once it is through -/
theorem booked_dated {act : Act Memory κ Unit} (h : Obeys Dated act s fun _ _ => True) (t : EventType) :
    Obeys Dated (do counted act; noteEvent t) s fun _ _ => True := by
  refine ⟨?_, fun _ _ => trivial⟩
  have law := h.law
  rw [bind_run, counted_run]
  rcases hr : act s with ⟨(e | text) | a, s'⟩ <;> rw [hr] at law
  · exact { law with }
  · exact law
  · exact { law with }

/-! ## The work of the service -/

theorem applyAction_dated (userId : Nat) (action : Action) (now : Instant) (id : Nat) :
    Obeys Dated (applyAction userId action now id) s fun _ _ => True := by
  refine (findOrder_dated id).bind fun o s₁ _ _ => ?_
  dsimp only
  split_ifs
  · rw [refuse_bind]; exact Obeys.refuse _
  · rw [refuse_bind]; exact Obeys.refuse _
  · rw [refuse_bind]; exact Obeys.refuse _
  · have after : Obeys Dated (Act.ofExcept (o.after action now)) s₁ fun _ _ => True := Obeys.ofExcept fun _ _ => trivial
    refine after.bind fun (o', t) s₂ _ _ => (updateOrder_dated o').bind fun _ s₃ _ _ => ?_
    refine (appendHistory_dated _ _).bind fun _ s₄ _ _ => (appendEvent_dated _ _ _ _).bind fun _ s₅ _ _ => ?_
    exact Obeys.pure trivial

theorem checkReclaim_dated (o : Order) : Obeys Dated (checkReclaim o) s fun _ _ => True := by
  unfold checkReclaim
  split
  · exact Obeys.refuse _
  · exact Obeys.pure trivial
  · refine Obeys.readClock.bind fun now s₁ _ _ => ?_
    split_ifs
    · exact Obeys.refuse _
    · exact Obeys.pure trivial

theorem applyInBatch_dated (userId : Nat) (action : Action) (now : Instant) (id : Nat) :
    Obeys Dated (applyInBatch userId action now id) s fun _ _ => True := by
  have saved : Obeys Dated (savepoint (applyAction userId action now id)) s fun _ _ => True :=
    savepoint_dated fun _ => applyAction_dated userId action now id
  refine saved.attempt.bind fun r s₁ _ _ => ?_
  cases r with
  | ok outcome => exact Obeys.pure trivial
  | error e => exact (noteFailure_idle e).dated.bind fun _ _ _ _ => Obeys.pure trivial

theorem batch_dated (userId : Nat) (action : Action) (now : Instant) (ids : List Nat) :
    Obeys Dated (ids.mapM (applyInBatch userId action now)) s fun _ _ => True := by
  induction ids generalizing s with
  | nil => exact Obeys.pure trivial
  | cons id ids ih =>
    rw [List.mapM_cons]
    refine (applyInBatch_dated userId action now id).bind fun _ s₁ _ _ => ih.bind fun _ s₂ _ _ => ?_
    exact Obeys.pure trivial

instance : Lasting (@Dated κ) where
  idle := Idle.dated
  accepted {o} _ _ := by
    refine booked_dated (transaction_dated fun s => ?_) _
    refine (insertNew_dated o).bind fun _ s₁ _ _ => (appendHistory_dated _ _).bind fun _ s₂ _ _ => ?_
    exact appendEvent_dated _ _ _ _
  reclaimed id _ := by
    refine booked_dated (transaction_dated fun s => ?_) _
    refine (findOrder_dated id).bind fun o s₁ _ _ => (checkReclaim_dated o).bind fun _ s₂ _ _ => ?_
    refine (appendHistory_dated _ _).bind fun _ s₃ _ _ => (deleteOrder_dated _).bind fun _ s₄ _ _ => ?_
    exact appendEvent_dated _ _ _ _
  processed userId action now ids _ := transaction_dated fun _ => batch_dated userId action now ids

end PickupPoint
