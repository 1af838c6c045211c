/-
Deadlines: who can do something with an order, and when.

An order on the shelf is for its client until its deadline and for the courier from then on, and at the deadline itself
for both. One that a client has can be brought back until its deadline, and one that came back is for the courier. So
there is always a way, but for an order that its client has and is overdue (`no_order_stranded`). The row of such an
order is not touched any more, whatever calls come: the deadline stays passed, and there is no deed left that turns
the row (`Deed.Turns.of_overdue`), so each call keeps it, and each session (`Frozen.run`).
-/
import PickupPoint.Proofs.Columns
import PickupPoint.Proofs.Deeds
import PickupPoint.Proofs.Lifecycle
import PickupPoint.Proofs.Tenants

namespace PickupPoint

open Act

variable {κ : Type}

/-! ## One id of a batch -/

theorem Order.verdict_ok_iff {action : Action} {now : Instant} {o : Order} {p : Order × EventType} :
    Order.verdict action now (some o) = .ok p ↔ now ≤ o.expiresAt ∧ o.after action now = .ok p := by
  show (if o.expiresAt < now then .error (overdue action) else o.after action now) = .ok p ↔ _
  split_ifs with late
  · exact iff_of_false nofun fun h => h.1 late
  · exact (and_iff_right late).symm

theorem mapM_one {α β : Type} (f : α → Act Memory κ β) (a : α) (s : Site Memory κ) :
    [a].mapM f s = ((f a s).1.map ([·]), (f a s).2) := by
  rw [List.mapM_cons]
  exact map_run (f a) ([·]) s

/-- the verdict on the order of a client -/
theorem applyInBatch_own {s : Site Memory κ} (hs : s.faults = []) {o : Order}
    (row : s.store.orders.find? o.id = some o) (action : Action) (now : Instant) :
    applyInBatch o.userId action now o.id s =
      match Order.verdict action now (some o) with
      | .ok (o', t) =>
        (.ok (o.id, some t), s.noted (s.store.orders.put o') t (.client o.userId) o' o'.status)
      | .error e => (.ok (o.id, none), { s with metrics := s.metrics.countFailure e.code }) := by
  have own : s.store.ownOrder o.userId o.id = some o := by
    rw [Memory.ownOrder, row, Option.filter_some_pos (by simp)]
  have run := applyInBatch_run hs o.userId action now o.id
  rw [own] at run
  exact run

/-! ## The work of a reclaim -/

/-- The courier may take the order away. -/
def Order.Free (o : Order) (now : Instant) : Prop :=
  o.status = .returned ∨ (o.status ≠ .accepted ∧ o.expiresAt ≤ now)

theorem Memory.Changes.reclaimed_absent {m m' : Memory} {now : Instant} {id : Nat}
    (h : m.Changes (.reclaim now id) m') : m'.orders.find? id = none := by
  cases h with
  | reclaimed found free =>
    show (m.orders.erase id).find? id = none
    rw [OrderTable.find?_erase, if_pos rfl]

/-- the work of handing an order back to the courier -/
def reclaimWork (id : Nat) : Act Memory κ Unit := do
  let order ← findOrder id
  checkReclaim order
  appendHistory id .deleted
  deleteOrder id
  appendEvent .orderReturnedToCourier (.courier order.userId) order .deleted

theorem checkReclaim_grants (o : Order) (s : Site Memory κ) :
    halt? (checkReclaim o s).1 = none ↔ o.Free s.clock.current := by
  have timed : halt? ((do
      let now ← readClock
      if now < o.expiresAt then refuse .storageNotExpired : Act Memory κ Unit) s).1 = none ↔
        o.expiresAt ≤ s.clock.current := by
    rw [bind_run, readClock_run]
    dsimp only
    split_ifs with early
    · exact iff_of_false nofun (not_not.2 early)
    · exact iff_of_true rfl early
  unfold checkReclaim Order.Free
  rcases o.status with _ | _ | _ | _
  · exact timed.trans (by simp)
  · exact iff_of_false nofun (by simp)
  · exact iff_of_true rfl (.inl rfl)
  · exact timed.trans (by simp)

theorem deleteOrder_smooth {s : Site Memory κ} (hs : s.faults = []) {id : Nat} {o : Order}
    (found : s.store.orders.find? id = some o) : Obeys Smooth (deleteOrder id) s fun _ _ => True := by
  refine Obeys.smooth_call ((deleteOrder_obeys id s).mono fun _ _ _ => trivial) hs fun _ => ⟨(), ?_⟩
  show (Memory.delete id s.store).1 = _
  simp [Memory.delete, found]

/-- Where no faults are set, the work goes through if the courier may take the order away. -/
theorem reclaimWork_grants {s : Site Memory κ} (hs : s.faults = []) {id : Nat} {o : Order}
    (row : s.store.orders.find? id = some o) : halt? (reclaimWork id s).1 = none ↔ o.Free s.clock.current := by
  have looked : findOrder id s = _ := find_run hs .txGetOrder id
  rw [row] at looked
  have grants := checkReclaim_grants o s
  have checks : Obeys Aside (checkReclaim o) s _ := checkReclaim_obeys o s
  obtain ⟨aside, answer⟩ := checks
  unfold reclaimWork
  rw [bind_run, looked]
  dsimp only
  rw [bind_run]
  rcases hc : checkReclaim o s with ⟨halt | _, s₁⟩ <;> rw [hc] at grants aside answer
  · exact iff_of_false nofun fun free => nomatch grants.2 free
  · have faultless : s₁.faults = [] := Fault.none_of_effects aside.effects hs
    have same : s₁.store = s.store := (answer () rfl).1
    have written : Obeys Smooth (appendHistory id .deleted) s₁ fun _ m => m.orders = s.store.orders := by
      refine Obeys.smooth_call ((appendHistory_obeys id .deleted s₁).mono ?_) faultless fun _ => ⟨(), rfl⟩
      rintro _ _ ⟨time, rfl⟩
      show s₁.store.orders = s.store.orders
      rw [same]
    have rest : Obeys Smooth (do
        appendHistory id .deleted
        deleteOrder id
        appendEvent .orderReturnedToCourier (.courier o.userId) o .deleted) s₁ fun _ _ => True := by
      refine written.bind fun _ s₂ h₂ kept => ?_
      refine (deleteOrder_smooth h₂.faultless ((congrArg (·.find? id) kept).trans row)).bind fun _ s₃ h₃ _ => ?_
      exact appendEvent_smooth h₃.faultless _ _ _ _
    exact iff_of_true rest.law.answered (grants.1 rfl)

variable [HistoryCache κ]

/-! ## What can be done -/

/-- The client collects an order. -/
def Collects (s : Site Memory κ) (o : Order) : Prop :=
  ∃ s', process o.userId .issue [o.id] s = (.ok ⟨[o.id], []⟩, s') ∧ s'.store.orders.find? o.id =
    some { o with status := .accepted, expiresAt := s.clock.current.plusSeconds (48 * 3600) }

/-- The client brings it back. -/
def BringsBack (s : Site Memory κ) (o : Order) : Prop :=
  ∃ s', process o.userId .takeBack [o.id] s = (.ok ⟨[o.id], []⟩, s') ∧
    s'.store.orders.find? o.id = some { o with status := .returned }

/-- The courier takes it away. -/
def TakesAway (s : Site Memory κ) (o : Order) : Prop :=
  ∃ s', reclaim o.id s = (.ok .deleted, s') ∧ s'.store.orders.find? o.id = none

section Faultless

variable {s : Site Memory κ} {o : Order} (quiet : DropsQuietly κ) (hs : s.faults = [])
  (row : s.store.orders.find? o.id = some o)
include quiet hs row

/-- A batch of one id goes through if its client may do so with the order, and then leaves what is made of it. -/
theorem process_one_iff (action : Action) (o' : Order) :
    (∃ s', process o.userId action [o.id] s = (.ok ⟨[o.id], []⟩, s') ∧ s'.store.orders.find? o.id = some o') ↔
      s.clock.current ≤ o.expiresAt ∧ ∃ t, o.after action s.clock.current = .ok (o', t) := by
  have one := applyInBatch_own (s := { s with clock := s.clock.advance }) hs row action s.clock.current
  have batch := mapM_one (applyInBatch o.userId action s.clock.current) o.id { s with clock := s.clock.advance }
  rcases verdict : Order.verdict action s.clock.current (some o) with e | ⟨x, t⟩ <;> rw [verdict] at one <;>
    rw [one] at batch
  · obtain ⟨u, run, -⟩ := process_worked quiet hs batch hs
    refine iff_of_false ?_ ?_
    · rintro ⟨s', done, -⟩
      rw [run] at done
      cases done
    · rintro ⟨due, t, after⟩
      cases verdict.symm.trans (Order.verdict_ok_iff.2 ⟨due, after⟩)
  · obtain ⟨due, after⟩ := Order.verdict_ok_iff.1 verdict
    obtain ⟨u, run, -, store, -⟩ := process_worked quiet hs batch hs
    have left : u.store.orders.find? o.id = some x := by
      rw [store]
      show (s.store.orders.put x).find? o.id = some x
      rw [OrderTable.find?_put, if_pos (Order.after_id after)]
    constructor
    · rintro ⟨s', done, there⟩
      cases run.symm.trans done
      cases left.symm.trans there
      exact ⟨due, t, after⟩
    · rintro ⟨-, t', after'⟩
      cases after.symm.trans after'
      exact ⟨u, run, left⟩

theorem collects_iff : Collects s o ↔ o.status = .expects ∧ s.clock.current ≤ o.expiresAt := by
  refine (process_one_iff quiet hs row .issue _).trans (and_comm.trans (and_congr_left fun _ => ?_))
  constructor
  · rintro ⟨t, after⟩
    obtain ⟨-, ⟨-, expected, -⟩ | ⟨⟨⟩, -⟩⟩ := Order.after_ok after
    exact expected
  · intro expected
    exact ⟨.orderIssued, by simp only [Order.after, expected]; rfl⟩

theorem bringsBack_iff : BringsBack s o ↔ o.status = .accepted ∧ s.clock.current ≤ o.expiresAt := by
  refine (process_one_iff quiet hs row .takeBack _).trans (and_comm.trans (and_congr_left fun _ => ?_))
  constructor
  · rintro ⟨t, after⟩
    obtain ⟨-, ⟨⟨⟩, -⟩ | ⟨-, accepted, -⟩⟩ := Order.after_ok after
    exact accepted
  · intro accepted
    exact ⟨.orderReturnedByClient, if_pos accepted⟩

theorem takesAway_iff : TakesAway s o ↔ o.Free s.clock.current := by
  rw [← reclaimWork_grants hs row]
  have works : Obeys Aside (reclaimWork o.id) s _ := reclaimWork_obeys o.id s
  obtain ⟨aside, answer⟩ := works
  have faultless := Fault.none_of_effects aside.effects hs
  have whole := transaction_faultless hs faultless
  have stored : storeReclaimed o.id s = (do
      counted (transaction (reclaimWork o.id))
      noteEvent .orderReturnedToCourier : Act Memory κ Unit) s := rfl
  unfold TakesAway reclaim
  rw [bind_run, stored, bind_run, counted_run, whole]
  rcases hr : reclaimWork o.id s with ⟨halt | _, s₁⟩ <;> rw [hr] at answer faultless
  · refine iff_of_false ?_ nofun
    rintro ⟨s', done, -⟩
    rcases halt with _ | _ <;> cases done
  · obtain ⟨now, changed⟩ := answer () rfl
    obtain ⟨u, dropped, asked⟩ := dropHistory_calm quiet o.id
      (s := { s₁ with metrics := s₁.metrics.countEvent .orderReturnedToCourier }) (Fault.calm_of_none faultless)
    refine iff_of_true ⟨u, ?_, ?_⟩ rfl
    · dsimp only
      rw [noteEvent_run]
      dsimp only
      rw [bind_run, dropped]
      rfl
    · rw [asked.store]
      exact changed.reclaimed_absent

end Faultless

/-! ## Overdue orders -/

/-- The client has the order, and can not bring it back any more. -/
def Order.Overdue (o : Order) (now : Instant) : Prop := o.status = .accepted ∧ o.expiresAt < now

/-- All that the clock has yet to show is after a deadline. -/
def Clock.Past (c : Clock) (deadline : Instant) : Prop := ∀ n, c.taken ≤ n → deadline < c.readings n

theorem Clock.Past.of_later {c c' : Clock} {deadline : Instant} (past : c.Past deadline)
    (readings : c'.readings = c.readings) (taken : c.taken ≤ c'.taken) : c'.Past deadline := by
  intro n later
  rw [readings]
  exact past n (taken.trans later)

/-- No deed turns the row of an order that is overdue when it is done. -/
theorem Deed.Turns.of_overdue {d : Deed} {o : Order} {row : Option Order} (h : d.Turns (some o) row)
    (accepted : o.status = .accepted) (late : ∀ userId action now, d = .act userId action now → o.expiresAt < now) :
    row = some o := by
  cases h with
  | kept => rfl
  | collected own expected due => cases accepted.symm.trans expected
  | broughtBack own _ due => exact absurd (late _ _ _ rfl) due
  | removed free => exact absurd accepted free

theorem deed_act {c : Call} {now time : Instant} {id userId : Nat} {action : Action}
    (h : c.deed now id = .act userId action time) : time = now := by
  cases c with
  | process =>
    simp only [Call.deed] at h
    split_ifs at h
    cases h
    rfl
  | reclaim =>
    simp only [Call.deed] at h
    split_ifs at h
  | accept | importAll | list | returns | scroll | history | orderHistory | get => cases h

/-- the row of an order that its client has, in the time after its deadline -/
structure Frozen (s : Site Memory κ) (o : Order) : Prop where
  row : s.store.orders.find? o.id = some o
  accepted : o.status = .accepted
  past : s.clock.Past o.expiresAt

theorem Frozen.step {s : Site Memory κ} {o : Order} (h : Frozen s o) (t : Turn) : Frozen (t.step s) o := by
  cases t with
  | wait => exact ⟨h.row, h.accepted, h.past.of_later rfl (Nat.le_succ _)⟩
  | call c =>
    have dated : Dated s none (c.step s) := perform_dated c s
    have turned := c.turns s o.id
    rw [h.row] at turned
    refine ⟨turned.of_overdue h.accepted ?_, h.accepted, h.past.of_later dated.readings dated.taken⟩
    intro userId action now acts
    rw [deed_act acts]
    exact h.past _ (Nat.le_refl _)

theorem Frozen.run {s : Site Memory κ} {o : Order} (h : Frozen s o) (turns : List Turn) :
    Frozen (Turn.run s turns) o := by
  induction turns generalizing s with
  | nil => exact h
  | cons t turns ih => exact ih (h.step t)

omit [HistoryCache κ] in
theorem frozen_of_overdue {s : Site Memory κ} {o : Order} (row : s.store.orders.find? o.id = some o)
    (overdue : o.Overdue s.clock.current) (onward : ∀ n, s.clock.taken ≤ n → s.clock.current ≤ s.clock.readings n) :
    Frozen s o :=
  ⟨row, overdue.1, fun n later => lt_of_lt_of_le overdue.2 (onward n later)⟩

/-! ## No order is stranded -/

/-- Calls that take turns on an empty store can come to such a store. -/
def Reached (κ : Type) [HistoryCache κ] (m : Memory) : Prop :=
  ∃ (s : Site Memory κ) (moves : List (Move Memory κ)), ((Pool.opened s).run moves).site.store = m

theorem reached_of_session (s : Site Memory κ) (calls : List Call) :
    Reached κ (Call.run { s with store := .empty } calls).store := by
  obtain ⟨moves, left⟩ := Pool.session_is_run (Pool.opened s) calls
  exact ⟨s, moves, congrArg Site.store left⟩

theorem Reached.present {m : Memory} (h : Reached κ m) {id : Nat} {o : Order} (row : m.orders.find? id = some o) :
    o.status ≠ .deleted := by
  obtain ⟨s, moves, rfl⟩ := h
  exact (Pool.opened_keeps Lifecycle.inv_step Lifecycle.inv_empty s moves).present id o row

/-- The courier can take away what came back, and what is still expected from its deadline on. -/
theorem free_iff {o : Order} (present : o.status ≠ .deleted) (now : Instant) :
    o.Free now ↔ o.status = .returned ∨ o.status = .expects ∧ o.expiresAt ≤ now := by
  unfold Order.Free
  cases status : o.status with
  | deleted => exact absurd status present
  | expects | accepted | returned => simp

/-- **No order is stranded.** Of an order that is stored, the client and the courier can do just what its status and its
deadline allow, and something can be done with it at every time, unless its client has it and is late. Then nothing is
done with it: its row stays as it is in every session from then on, whatever faults are set. -/
theorem no_order_stranded (quiet : DropsQuietly κ) {s : Site Memory κ} (reached : Reached κ s.store) {o : Order}
    (row : s.store.orders.find? o.id = some o) :
    (s.faults = [] →
      (Collects s o ↔ o.status = .expects ∧ s.clock.current ≤ o.expiresAt) ∧
      (BringsBack s o ↔ o.status = .accepted ∧ s.clock.current ≤ o.expiresAt) ∧
      (TakesAway s o ↔ o.status = .returned ∨ o.status = .expects ∧ o.expiresAt ≤ s.clock.current) ∧
      (¬ o.Overdue s.clock.current → Collects s o ∨ BringsBack s o ∨ TakesAway s o)) ∧
    (o.Overdue s.clock.current → (∀ n, s.clock.taken ≤ n → s.clock.current ≤ s.clock.readings n) →
      ∀ turns : List Turn, (Turn.run s turns).store.orders.find? o.id = some o) := by
  have present := reached.present row
  refine ⟨fun hs => ?_, fun overdue onward turns => ((frozen_of_overdue row overdue onward).run turns).row⟩
  have collects := collects_iff quiet hs row
  have bringsBack := bringsBack_iff quiet hs row
  have takesAway := (takesAway_iff quiet hs row).trans (free_iff present _)
  refine ⟨collects, bringsBack, takesAway, fun due => ?_⟩
  rw [collects, bringsBack, takesAway]
  cases status : o.status with
  | expects =>
    rcases le_total s.clock.current o.expiresAt with early | late
    · exact .inl ⟨rfl, early⟩
    · exact .inr (.inr (.inr ⟨rfl, late⟩))
  | accepted => exact .inr (.inl ⟨rfl, fun late => due ⟨status, late⟩⟩)
  | returned => exact .inr (.inr (.inl rfl))
  | deleted => exact absurd status present

/-- what some calls leave, at a time at which the clock stops -/
def shelfAt (second : Nat) (calls : List Call) : Site Memory TimedCache :=
  { opening TimedCache.empty with
    store := (Call.run (opening TimedCache.empty) calls).store, clock := ⟨fun _ => ⟨second, 0⟩, 0⟩ }

theorem shelfAt_reached (second : Nat) (calls : List Call) : Reached TimedCache (shelfAt second calls).store :=
  reached_of_session (opening TimedCache.empty) calls

/-- At the deadline of a parcel its client can still collect it, and the courier can take it away. A parcel that was
collected is there for good once the time to bring it back is over. -/
theorem parcel_at_deadlines :
    (∃ o, (shelfAt 3600 [.accept lightParcel]).store.orders.find? 1 = some o ∧
      Collects (shelfAt 3600 [.accept lightParcel]) o ∧ TakesAway (shelfAt 3600 [.accept lightParcel]) o) ∧
    ∃ o, o.status = .accepted ∧ ∀ turns : List Turn,
      (Turn.run (shelfAt 200000 [.accept lightParcel, .process 7 .issue [1]]) turns).store.orders.find? 1 = some o := by
  have expected : ((shelfAt 3600 [.accept lightParcel]).store.orders.find? 1).map
      (fun o => (o.id, o.status, o.expiresAt)) = some (1, .expects, ⟨3600, 0⟩) := by decide +kernel
  have kept : ((shelfAt 200000 [.accept lightParcel, .process 7 .issue [1]]).store.orders.find? 1).map
      (fun o => (o.id, o.status, o.expiresAt)) = some (1, .accepted, ⟨172802, 0⟩) := by decide +kernel
  obtain ⟨o, row, same⟩ := Option.map_eq_some_iff.1 expected
  obtain ⟨o', row', same'⟩ := Option.map_eq_some_iff.1 kept
  simp only [Prod.mk.injEq] at same same'
  obtain ⟨id, status, deadline⟩ := same
  obtain ⟨id', status', deadline'⟩ := same'
  have shown : (shelfAt 3600 [.accept lightParcel]).store.orders.find? o.id = some o := by rw [id]; exact row
  have shown' : (shelfAt 200000 [.accept lightParcel, .process 7 .issue [1]]).store.orders.find? o'.id = some o' := by
    rw [id']; exact row'
  have can := (no_order_stranded caches_dropQuietly.1 (shelfAt_reached 3600 _) shown).1 rfl
  have stays := (no_order_stranded caches_dropQuietly.1 (shelfAt_reached 200000 _) shown').2
  rw [id'] at stays
  refine ⟨⟨o, row, can.1.2 ⟨status, ?_⟩, can.2.2.1.2 (.inr ⟨status, ?_⟩)⟩, o', status', ?_⟩
  · rw [deadline]; exact le_refl _
  · rw [deadline]; exact le_refl _
  · refine stays ⟨status', ?_⟩ fun _ _ => le_refl _
    rw [deadline']
    decide

end PickupPoint
