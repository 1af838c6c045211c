/-
What becomes of the row of an order.

A row comes to be when a parcel is accepted, and it is gone when the courier has taken the order back. In between only
its client does anything to it: to collect the order makes it accepted, with 48 hours to bring it back, and to bring it
back makes it returned. All else of the row stays as it is (`Deed.Turns`).

A call has one deed at most to do for an id, and a row that has turned by it does not turn by it again, so a whole call
makes of a row what one change does (`Call.turns`). It follows that a row which is there has been there since the call
that stored it, with the price that was fixed then (`stood_since`). All of it holds whatever faults are set.
-/
import Mathlib.Data.List.Induction
import PickupPoint.Proofs.Prospects
import PickupPoint.Proofs.Verdicts

namespace PickupPoint

open Act

/-! ## Deeds -/

/-- what may be done to the row of an id -/
inductive Deed where
  | nothing
  /-- one of some orders is stored -/
  | store (may : Order → Prop)
  | act (userId : Nat) (action : Action) (now : Instant)
  | remove

namespace Deed

/-- what a deed may make of a row -/
inductive Turns : Deed → Option Order → Option Order → Prop
  | kept {d : Deed} (row : Option Order) : Turns d row row
  | stored {may : Order → Prop} {o : Order} (fit : may o) : Turns (.store may) none (some o)
  | collected {o : Order} {userId : Nat} {now : Instant} (own : o.userId = userId) (expected : o.status = .expects)
    (due : now ≤ o.expiresAt) : Turns (.act userId .issue now) (some o)
      (some { o with status := .accepted, expiresAt := now.plusSeconds (48 * 3600) })
  | broughtBack {o : Order} {userId : Nat} {now : Instant} (own : o.userId = userId) (accepted : o.status = .accepted)
    (due : now ≤ o.expiresAt) : Turns (.act userId .takeBack now) (some o) (some { o with status := .returned })
  | removed {o : Order} (free : o.status ≠ .accepted) : Turns .remove (some o) none

/-- A row that has turned by a deed does not turn by it again. -/
theorem Turns.trans {d : Deed} {before between after : Option Order} (h₁ : d.Turns before between)
    (h₂ : d.Turns between after) : d.Turns before after := by
  cases h₁ with
  | kept => exact h₂
  | stored fit =>
    cases h₂ with
    | kept => exact .stored fit
  | collected own expected due =>
    cases h₂ with
    | kept => exact .collected own expected due
    | collected _ again _ => cases again
  | broughtBack own accepted due =>
    cases h₂ with
    | kept => exact .broughtBack own accepted due
    | broughtBack _ again _ => cases again
  | removed free =>
    cases h₂ with
    | kept => exact .removed free

/-- the changes that do a deed, to the row of their own id -/
def Allows : Deed → Change → Prop
  | .store may, .accept o => may o
  | .act userId action now, .process userId' action' now' _ => userId' = userId ∧ action' = action ∧ now' = now
  | .remove, .reclaim _ _ => True
  | _, _ => False

end Deed

/-- What is done with a parcel leaves what it is. -/
structure Order.SameParcel (o o' : Order) : Prop where
  id : o'.id = o.id
  userId : o'.userId = o.userId
  package : o'.package = o.package
  weight : o'.weight = o.weight
  price : o'.price = o.price

theorem Order.SameParcel.trans {o o' o'' : Order} (h₁ : o.SameParcel o') (h₂ : o'.SameParcel o'') :
    o.SameParcel o'' :=
  ⟨h₂.id.trans h₁.id, h₂.userId.trans h₁.userId, h₂.package.trans h₁.package, h₂.weight.trans h₁.weight,
    h₂.price.trans h₁.price⟩

/-- A row that is there was there before, of the same parcel, or has been stored. -/
theorem Deed.Turns.of_some {d : Deed} {row : Option Order} {o : Order} (h : d.Turns row (some o)) :
    (∃ old, row = some old ∧ old.SameParcel o) ∨ ∃ may, d = .store may ∧ may o := by
  cases h with
  | kept => exact .inl ⟨o, rfl, rfl, rfl, rfl, rfl, rfl⟩
  | stored fit => exact .inr ⟨_, rfl, fit⟩
  | @collected old => exact .inl ⟨old, rfl, rfl, rfl, rfl, rfl, rfl⟩
  | @broughtBack old => exact .inl ⟨old, rfl, rfl, rfl, rfl, rfl, rfl⟩

namespace Memory

variable {m m' : Memory} {id : Nat} {d : Deed}

theorem Changes.turns {c : Change} (h : m.Changes c m') (allowed : c.orderId = id → d.Allows c) :
    d.Turns (m.orders.find? id) (m'.orders.find? id) := by
  by_cases here : c.orderId = id
  · specialize allowed here
    subst here
    cases h with
    | @accepted o st free new =>
      have stored : (m.orders.put o).find? o.id = some o := by rw [OrderTable.find?_put, if_pos rfl]
      cases d with
      | store may =>
        show Deed.Turns _ (m.orders.find? o.id) ((m.orders.put o).find? o.id)
        rw [free, stored]
        exact .stored allowed
      | nothing | act | remove => exact allowed.elim
    | @processed o o' userId action now id t st found own due after =>
      have stored : (m.orders.put o').find? id = some o' := by
        rw [OrderTable.find?_put, if_pos (Order.after_found found after)]
      cases d with
      | act =>
        obtain ⟨rfl, rfl, rfl⟩ := allowed
        show Deed.Turns _ (m.orders.find? id) ((m.orders.put o').find? id)
        rw [found, stored]
        obtain ⟨-, ⟨rfl, expected, rfl⟩ | ⟨rfl, accepted, rfl⟩⟩ := Order.after_ok after
        · exact .collected own expected due
        · exact .broughtBack own accepted due
      | nothing | store | remove => exact allowed.elim
    | @reclaimed o now id st found free =>
      have gone : (m.orders.erase id).find? id = none := by rw [OrderTable.find?_erase, if_pos rfl]
      cases d with
      | remove =>
        show Deed.Turns _ (m.orders.find? id) ((m.orders.erase id).find? id)
        rw [found, gone]
        exact .removed (free.elim (fun returned => by rw [returned]; decide) And.left)
      | nothing | store | act => exact allowed.elim
  · have same : m'.orders.find? id = m.orders.find? id := congrArg Account.row (h.account_eq here)
    rw [same]
    exact .kept _

theorem Changed.turns {cs : List Change} (h : m.Changed cs m') (allowed : ∀ c ∈ cs, c.orderId = id → d.Allows c) :
    d.Turns (m.orders.find? id) (m'.orders.find? id) := by
  induction h with
  | nil => exact .kept _
  | cons head _ ih =>
    exact (head.turns (allowed _ List.mem_cons_self)).trans (ih fun c hc => allowed c (List.mem_cons_of_mem _ hc))

end Memory

/-! ## Deeds of calls -/

/-- the order that is made of a parcel: expected, with the surcharge of its package -/
def Acceptance.Becomes (a : Acceptance) (o : Order) : Prop :=
  ∃ package, Package.parse a.package = .ok package ∧ o = (a.packed package).addSurcharge

theorem Acceptance.Becomes.id {a : Acceptance} {o : Order} (h : a.Becomes o) : o.id = a.orderId := by
  obtain ⟨package, -, rfl⟩ := h
  rfl

theorem Acceptance.Becomes.expected {a : Acceptance} {o : Order} (h : a.Becomes o) : o.status = .expects := by
  obtain ⟨package, -, rfl⟩ := h
  rfl

/-- The call hands over a parcel, by itself or in a record. -/
def Call.Hands (a : Acceptance) : Call → Prop
  | .accept a' => a' = a
  | .importAll records => .ok a ∈ records
  | _ => False

/-- what a call that begins now may do to the row of an id -/
def Call.deed (c : Call) (now : Instant) (id : Nat) : Deed :=
  match c with
  | .accept _ | .importAll _ => .store fun o => ∃ a, c.Hands a ∧ a.orderId = id ∧ a.Becomes o
  | .process userId action ids => if id ∈ ids then .act userId action now else .nothing
  | .reclaim other => if other = id then .remove else .nothing
  | .list .. | .returns .. | .scroll .. | .history .. | .orderHistory .. | .get .. => .nothing

theorem deed_store {c : Call} {now : Instant} {id : Nat} {may : Order → Prop} (h : c.deed now id = .store may) :
    may = fun o => ∃ a, c.Hands a ∧ a.orderId = id ∧ a.Becomes o := by
  cases c with
  | accept | importAll => exact (Deed.store.inj h).symm
  | process | reclaim =>
    simp only [Call.deed] at h
    split_ifs at h
  | list | returns | scroll | history | orderHistory | get => cases h

section Calls

variable {κ : Type} [HistoryCache κ] {s : Site Memory κ} {P : Change → Prop}

theorem accept_made {a : Acceptance} (may : ∀ o, a.Becomes o → P (.accept o)) :
    Obeys (Made P) (accept a) s fun _ _ => True := by
  have packed : Obeys Tallied (checkAcceptance a) s fun o _ => a.Becomes o := checkAcceptance_packs a s
  have checked : Obeys Idle (checkAcceptance a) s _ := packed.weaken Tallied.idle
  refine checked.made.bind fun o s₁ _ becomes => ?_
  refine (storeAccepted_made becomes.expected (may o becomes)).bind fun _ s₂ _ _ => ?_
  exact (dropHistory_idle o.id).made.bind fun _ _ _ _ => Obeys.pure trivial

/-- A batch goes by the time at which it begins. -/
theorem process_made (userId : Nat) (action : Action) (ids : List Nat)
    (may : ∀ id ∈ ids, P (.process userId action s.clock.current id)) :
    Obeys (Made P) (process userId action ids) s fun _ _ => True := by
  have read : Obeys Idle readClock s fun now _ => now = s.clock.current :=
    ⟨Obeys.readClock.law, fun _ answer => (Except.ok.inj answer).symm⟩
  refine read.made.bind fun now s₁ _ this => ?_
  refine (batch_made (this ▸ may)).attempt.bind fun r s₂ _ _ => ?_
  cases r with
  | error e => exact (noteFailure_idle e).made.bind fun _ _ _ _ => Obeys.pure trivial
  | ok outcomes =>
    refine (noteBatch_idle outcomes).made.bind fun _ s₃ _ _ => ?_
    have dropped : Obeys Idle ((doneIds outcomes).forM dropHistory) s₃ _ := (drops_obeys _ s₃).weaken Asked.idle
    exact dropped.made.bind fun _ _ _ _ => Obeys.pure trivial

/-- What a call changes, it changes by what it may do to the row. -/
theorem perform_made (c : Call) (s : Site Memory κ) :
    ∃ cs, s.store.Changed cs (c.step s).store ∧ ∀ d ∈ cs, (c.deed s.clock.current d.orderId).Allows d := by
  cases c with
  | accept a =>
    have made := accept_made (s := s) (P := fun d => ((Call.accept a).deed s.clock.current d.orderId).Allows d)
      fun o becomes => ⟨a, rfl, becomes.id.symm, becomes⟩
    exact (made.bind fun _ _ _ _ => Obeys.pure (P := fun _ _ => True) trivial).law
  | importAll records =>
    let P : Change → Prop := fun d => ((Call.importAll records).deed s.clock.current d.orderId).Allows d
    have each : ∀ a, .ok a ∈ records → ∀ t : Site Memory κ, Obeys (Made P) (accept a) t fun _ _ => True :=
      fun a mem t => accept_made fun o becomes => ⟨a, mem, becomes.id.symm, becomes⟩
    have made : Obeys (Made P) (importAll records) s _ := imports_obey (fun e t => (noteFailure_idle e).made) each .none
    exact (made.bind fun _ _ _ _ => Obeys.pure (P := fun _ _ => True) trivial).law
  | process userId action ids =>
    have made := process_made userId action ids (s := s)
      (P := fun d => ((Call.process userId action ids).deed s.clock.current d.orderId).Allows d) fun id mem => by
        simp [Call.deed, Change.orderId, mem, Deed.Allows]
    exact (made.bind fun _ _ _ _ => Obeys.pure (P := fun _ _ => True) trivial).law
  | reclaim id =>
    obtain ⟨cs, changed, ahead⟩ := perform_ahead (.reclaim id) s
    refine ⟨cs, changed, fun d hd => ?_⟩
    obtain ⟨now, rfl⟩ := ahead d hd
    simp [Call.deed, Change.orderId, Deed.Allows]
  | list | returns | scroll | history | orderHistory | get =>
    obtain ⟨cs, changed, ahead⟩ := perform_ahead _ s
    exact ⟨cs, changed, fun d hd => (ahead d hd).elim⟩

theorem Call.turns (c : Call) (s : Site Memory κ) (id : Nat) :
    (c.deed s.clock.current id).Turns (s.store.orders.find? id) ((c.step s).store.orders.find? id) := by
  obtain ⟨cs, changed, allowed⟩ := perform_made c s
  exact changed.turns fun d hd here => here ▸ allowed d hd

/-! ## Deeds of steps -/

/-- what the next step of a call may do to the row of an id -/
def Progress.deed (p : Progress) (id : Nat) : Deed :=
  match p with
  | .storing o _ => if o.id = id then .store (· = o) else .nothing
  | .processing userId action ids now => if id ∈ ids then .act userId action now else .nothing
  | .reclaiming other => if other = id then .remove else .nothing
  | _ => .nothing

/-- what a move of a pool may do -/
def Pool.deed (p : Pool Memory κ) (id : Nat) : Move Memory κ → Deed
  | .step i => (p.calls[i]?.map (·.deed id)).getD .nothing
  | .enter _ | .shift _ => .nothing

theorem allows_of_due {p : Progress} {c : Change} (h : p.Due c) : (p.deed c.orderId).Allows c := by
  obtain ⟨may, ahead⟩ := h
  cases p with
  | storing o origin =>
    cases c with
    | accept x =>
      obtain rfl : x = o := may
      simp [Progress.deed, Change.orderId, Deed.Allows]
    | process | reclaim => exact may.elim
  | processing userId action ids now =>
    obtain ⟨id, mem, rfl⟩ := ahead
    simp [Progress.deed, Change.orderId, mem, Deed.Allows]
  | reclaiming id =>
    obtain ⟨now, rfl⟩ := ahead
    simp [Progress.deed, Change.orderId, Deed.Allows]
  | _ => exact may.elim

theorem Pool.turns {p : Pool Memory κ} (sound : p.Sound) (move : Move Memory κ) (id : Nat) :
    (p.deed id move).Turns (p.site.store.orders.find? id) ((p.step move).site.store.orders.find? id) := by
  cases move with
  | enter c => exact .kept _
  | shift s => exact .kept _
  | step i =>
    rcases hi : p.calls[i]? with _ | q <;> simp only [step, deed, hi]
    · exact .kept _
    · obtain ⟨⟨cs, changed, due⟩, -⟩ := step_ahead (sound q (List.mem_of_getElem? hi)) p.site
      exact changed.turns fun c hc here => here ▸ allows_of_due (due c hc)

/-! ## Since a parcel was accepted -/

/-- The row of an id has been there since one of the calls stored it, and has been of the same parcel all along. -/
def StoodSince (s : Site Memory κ) (id : Nat) (calls : List Call) : Prop :=
  ∃ before c after a package, calls = before ++ c :: after ∧ c.Hands a ∧ a.orderId = id ∧
    Package.parse a.package = .ok package ∧ ∀ done, done <+: after → ∃ o,
      (Call.run s (before ++ c :: done)).store.orders.find? id = some o ∧ (a.packed package).addSurcharge.SameParcel o

theorem stood_since {s : Site Memory κ} {id : Nat} (absent : s.store.orders.find? id = none) {calls : List Call}
    {o : Order} (row : (Call.run s calls).store.orders.find? id = some o) : StoodSince s id calls := by
  induction calls using List.reverseRecOn generalizing o with
  | nil => cases absent.symm.trans row
  | append_singleton calls c ih =>
    have turned := c.turns (Call.run s calls) id
    have last : c.step (Call.run s calls) = Call.run s (calls ++ [c]) := by simp [Call.run]
    rw [last, row] at turned
    rcases turned.of_some with ⟨old, there, same⟩ | ⟨may, stores, fit⟩
    · obtain ⟨before, c₀, after, a, package, rfl, hands, hid, parsed, since⟩ := ih there
      refine ⟨before, c₀, after ++ [c], a, package, by simp, hands, hid, parsed, fun done hdone => ?_⟩
      rcases List.prefix_concat_iff.1 hdone with rfl | hdone
      · obtain ⟨o', there', still⟩ := since after List.prefix_rfl
        obtain rfl : o' = old := Option.some.inj (there'.symm.trans there)
        exact ⟨o, by simpa using row, still.trans same⟩
      · exact since done hdone
    · rw [deed_store stores] at fit
      obtain ⟨a, hands, hid, package, parsed, rfl⟩ := fit
      refine ⟨calls, c, [], a, package, rfl, hands, hid, parsed, fun done hdone => ?_⟩
      rw [List.prefix_nil.1 hdone]
      exact ⟨_, row, rfl, rfl, rfl, rfl, rfl⟩

/-- **Rows change by deeds.** Whatever is stored and whatever faults are set, in every run of calls: a call makes of each
row what its deed may and no more. So does each step of calls that take turns on an empty store. And where an id had no
row at first, its row has been there since a call handed over the parcel, with one surcharge on the price all along. -/
theorem rows_change_by_deeds (s : Site Memory κ) (id : Nat) :
    (∀ (past : List Call) (c : Call),
      let t := Call.run s past
      (c.deed t.clock.current id).Turns (t.store.orders.find? id) ((c.step t).store.orders.find? id)) ∧
      (∀ (past : List (Move Memory κ)) (move : Move Memory κ),
        let p := (Pool.opened s).run past
        (p.deed id move).Turns (p.site.store.orders.find? id) ((p.step move).site.store.orders.find? id)) ∧
      (s.store.orders.find? id = none → ∀ (calls : List Call) (o : Order),
        (Call.run s calls).store.orders.find? id = some o → StoodSince s id calls) := by
  refine ⟨fun past c => c.turns _ id, fun past move => ?_, ?_⟩
  · have sound : ((Pool.opened s).run past).Sound := List.foldlRecOn past Pool.step
      (fun _ hq => absurd hq List.not_mem_nil) fun p hp move _ => (Pool.step_sound hp move).1
    exact Pool.turns sound move id
  · intro absent calls o row
    exact stood_since absent row

end Calls

/-- Client 7 asks for a box twice in one batch and brings it back; client 8 tries in vain to do so. -/
def boxThereAndBack : List Call :=
  [.accept { lightParcel with package := "box" }, .process 7 .issue [1, 1], .process 8 .takeBack [1],
    .process 7 .takeBack [1]]

/-- The box is still there, at 10 for the parcel and 20 for the box. -/
theorem box_stood_since_accepted :
    (∃ o, (Call.run (opening TimedCache.empty) boxThereAndBack).store.orders.find? 1 = some o ∧
      o.status = .returned ∧ o.price = .ofNat 30) ∧ StoodSince (opening TimedCache.empty) 1 boxThereAndBack := by
  have row : ((Call.run (opening TimedCache.empty) boxThereAndBack).store.orders.find? 1).map
      (fun o => (o.status, o.price)) = some (.returned, .ofNat 30) := by decide +kernel
  obtain ⟨o, there, same⟩ := Option.map_eq_some_iff.1 row
  obtain ⟨status, price⟩ := Prod.mk.inj same
  obtain ⟨-, -, stood⟩ := rows_change_by_deeds (opening TimedCache.empty) 1
  exact ⟨⟨o, there, status, price⟩, stood rfl boxThereAndBack o there⟩

end PickupPoint
