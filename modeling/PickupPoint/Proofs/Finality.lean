/-
What becomes of an id whose order was deleted.

It has no row, and of an id without a row nothing changes but by an acceptance (`Memory.Changed.account_of_gone`). So
what is told of it stays as it is until a parcel is accepted under the id once more, which adds the row, one entry and
one event (`deleted_until_accepted_anew`). Such parcels do come: an id is free again when its order is gone, so a
deletion ends the life of an order, but not that of its id (`deleted_id_comes_again`).
-/
import Mathlib.Data.List.Induction
import PickupPoint.Proofs.Lifecycle
import PickupPoint.Proofs.Prospects

namespace PickupPoint

/-! ## Ids without a row -/

theorem Lifecycle.Inv.gone {m : Memory} (h : Inv m) {id : Nat} (deleted : (m.statuses id).getLast? = some .deleted) :
    (m.account id).row = none := by
  rcases row : m.orders.find? id with _ | o
  · exact row
  · have last := (of_inv h).status id o row
    exact absurd (Option.some.inj (last.symm.trans deleted)) (h.present id o row)

/-- An order has been stored under an id, and what was told of it before is still told. -/
def Account.Renewed (acc : Account) (o : Order) (acc' : Account) : Prop :=
  o.status = .expects ∧ ∃ entryId st, acc' = acc.withNew o entryId st

namespace Memory

variable {m m' : Memory} {c : Change} {cs : List Change} {id : Nat} {o : Order}

theorem Changes.of_gone (h : m.Changes c m') (gone : m.orders.find? id = none) (here : c.orderId = id) :
    ∃ o, c = .accept o ∧ (m.account id).Renewed o (m'.account id) := by
  subst here
  cases h with
  | @accepted o st free new => exact ⟨o, rfl, new, _, st, account_accepted m new st⟩
  | processed st found => exact absurd (gone.symm.trans found) (Option.some_ne_none _).symm
  | reclaimed st found => exact absurd (gone.symm.trans found) (Option.some_ne_none _).symm

theorem Changed.account_of_gone (h : m.Changed cs m') (gone : m.orders.find? id = none) :
    m'.account id = m.account id ∨ ∃ o, .accept o ∈ cs ∧ o.id = id := by
  induction h with
  | nil => exact .inl rfl
  | @cons m m₁ m₂ c cs head _ ih =>
    by_cases here : c.orderId = id
    · obtain ⟨o, rfl, -⟩ := head.of_gone gone here
      exact .inr ⟨o, List.mem_cons_self, here⟩
    · have same := head.account_eq here
      rw [← same]
      exact (ih ((congrArg Account.row same).trans gone)).imp_right fun ⟨o, mem, hid⟩ =>
        ⟨o, List.mem_cons_of_mem _ mem, hid⟩

/-- Acceptances leave an id alone that is taken. -/
theorem Changed.account_of_taken (h : m.Changed cs m') (accepts : ∀ c ∈ cs, ∃ o, c = .accept o)
    (taken : m.orders.find? id = some o) : m'.account id = m.account id := by
  induction h with
  | nil => rfl
  | @cons m m₁ m₂ c cs head _ ih =>
    have other : c.orderId ≠ id := by
      rintro rfl
      obtain ⟨x, rfl⟩ := accepts c List.mem_cons_self
      cases head with
      | accepted st free => exact absurd (free.symm.trans taken) (Option.some_ne_none _).symm
    have same := head.account_eq other
    exact (ih (fun d hd => accepts d (List.mem_cons_of_mem _ hd)) ((congrArg Account.row same).trans taken)).trans same

/-- Of the acceptances one at most is of an id without a row. -/
theorem Changed.renewed_of_gone (h : m.Changed cs m') (accepts : ∀ c ∈ cs, ∃ o, c = .accept o)
    (gone : m.orders.find? id = none) :
    m'.account id = m.account id ∨
      ∃ o, .accept o ∈ cs ∧ o.id = id ∧ (m.account id).Renewed o (m'.account id) := by
  induction h with
  | nil => exact .inl rfl
  | @cons m m₁ m₂ c cs head tail ih =>
    have rest : ∀ d ∈ cs, ∃ o, d = .accept o := fun d hd => accepts d (List.mem_cons_of_mem _ hd)
    by_cases here : c.orderId = id
    · obtain ⟨o, rfl, new, entryId, st, account⟩ := head.of_gone gone here
      have taken : m₁.orders.find? id = some o := congrArg Account.row account
      exact .inr ⟨o, List.mem_cons_self, here, new, entryId, st, (tail.account_of_taken rest taken).trans account⟩
    · have same := head.account_eq here
      rw [← same]
      exact (ih rest ((congrArg Account.row same).trans gone)).imp_right fun ⟨o, mem, renewed⟩ =>
        ⟨o, List.mem_cons_of_mem _ mem, renewed⟩

end Memory

/-! ## Steps and calls -/

section Steps

variable {κ : Type} [HistoryCache κ] {id : Nat}

/-- The next step of a call stores an order under the id. -/
def Pool.Renews (id : Nat) (p : Pool Memory κ) (move : Move Memory κ) : Prop :=
  ∃ i o origin, move = .step i ∧ p.calls[i]? = some (.storing o origin) ∧ o.id = id ∧
    (p.site.store.account id).Renewed o ((p.step move).site.store.account id)

theorem Pool.step_of_gone {p : Pool Memory κ} (sound : p.Sound) (gone : (p.site.store.account id).row = none)
    (move : Move Memory κ) :
    (p.step move).site.store.account id = p.site.store.account id ∨ p.Renews id move := by
  cases move with
  | enter c => exact .inl rfl
  | shift s => exact .inl rfl
  | step i =>
    rcases hi : p.calls[i]? with _ | q
    · left; simp only [step, hi]
    have stepped : (p.step (.step i)).site = (q.step p.site).2 := by simp only [step, hi]
    obtain ⟨⟨cs, changed, due⟩, -⟩ := step_ahead (sound q (List.mem_of_getElem? hi)) p.site
    rw [← stepped] at changed
    rcases changed.account_of_gone gone with same | ⟨o, mem, -⟩
    · exact .inl same
    -- a step that may accept an order makes no other change
    obtain ⟨may, -⟩ := due _ mem
    cases q with
    | storing x origin =>
      have accepts : ∀ c ∈ cs, ∃ o, c = .accept o := by
        intro c hc
        obtain ⟨may, -⟩ := due c hc
        cases c with
        | accept o => exact ⟨o, rfl⟩
        | process | reclaim => exact may.elim
      rcases changed.renewed_of_gone accepts gone with same | ⟨o, mem, hid, renewed⟩
      · exact .inl same
      · obtain rfl : o = x := (due _ mem).1
        exact .inr ⟨i, o, origin, rfl, hi, hid, renewed⟩
    | _ => exact may.elim

/-- The call hands over a parcel under the id, by itself or in a record. -/
def Call.Offers (id : Nat) : Call → Prop
  | .accept a => a.orderId = id
  | .importAll records => ∃ a, .ok a ∈ records ∧ a.orderId = id
  | _ => False

/-- It does, and an order is stored under the id. -/
def Call.Renews (id : Nat) (s : Site Memory κ) (c : Call) : Prop :=
  c.Offers id ∧ ∃ o, o.id = id ∧ (s.store.account id).Renewed o ((c.step s).store.account id)

theorem offers_of_ahead {c : Call} {o : Order} (h : (Progress.start c).Ahead (.accept o)) : c.Offers o.id := by
  cases c with
  | accept a =>
    rcases h with ⟨x, hx, hid⟩ | h
    · cases hx; exact hid.symm
    · exact h.elim
  | importAll records =>
    obtain ⟨a, mem, hid⟩ := h
    exact ⟨a, mem, hid.symm⟩
  | reclaim => obtain ⟨now, h⟩ := h; cases h
  | process => obtain ⟨now, other, -, h⟩ := h; cases h
  | list | returns | scroll | history | orderHistory | get => exact False.elim h

theorem accepts_of_offers {c : Call} (h : c.Offers id) {d : Change} (ahead : (Progress.start c).Ahead d) :
    ∃ o, d = .accept o := by
  cases c with
  | accept a =>
    rcases ahead with ⟨o, rfl, -⟩ | ahead
    · exact ⟨o, rfl⟩
    · exact ahead.elim
  | importAll records =>
    cases d with
    | accept o => exact ⟨o, rfl⟩
    | process | reclaim => exact False.elim ahead
  | reclaim | process | list | returns | scroll | history | orderHistory | get => exact False.elim h

theorem Call.step_of_gone {s : Site Memory κ} (gone : (s.store.account id).row = none) (c : Call) :
    (c.step s).store.account id = s.store.account id ∨ c.Renews id s := by
  obtain ⟨cs, changed, ahead⟩ := perform_ahead c s
  rcases changed.account_of_gone gone with same | ⟨o, mem, hid⟩
  · exact .inl same
  have offers : c.Offers id := hid ▸ offers_of_ahead (ahead _ mem)
  rcases changed.renewed_of_gone (fun d hd => accepts_of_offers offers (ahead d hd)) gone with
    same | ⟨o, -, hid, renewed⟩
  · exact .inl same
  · exact .inr ⟨offers, o, hid, renewed⟩

end Steps

/-! ## Runs -/

section Runs

variable {σ μ : Type}

/-- What is told stays as it is, until a move renews it. -/
def Rests (step : σ → μ → σ) (told : σ → Account) (renews : σ → μ → Prop) (x : σ) (moves : List μ) : Prop :=
  (∀ done, done <+: moves → told (done.foldl step x) = told x) ∨
    ∃ before move after, moves = before ++ move :: after ∧
      (∀ done, done <+: before → told (done.foldl step x) = told x) ∧ renews (before.foldl step x) move

theorem rests_of_gone {step : σ → μ → σ} {told : σ → Account} {renews : σ → μ → Prop} {I : σ → Prop}
    (keeps : ∀ x move, I x → I (step x move))
    (once : ∀ x move, I x → (told x).row = none → told (step x move) = told x ∨ renews x move) {x : σ} (h : I x)
    (gone : (told x).row = none) (moves : List μ) : Rests step told renews x moves := by
  induction moves using List.reverseRecOn with
  | nil => exact .inl fun done hd => by rw [List.prefix_nil.1 hd]; rfl
  | append_singleton moves move ih =>
    rcases ih with same | ⟨before, first, after, rfl, same, renews⟩
    · -- what is told has not changed so far, so there is still no row when the last move comes
      have here := same moves List.prefix_rfl
      have inv : I (moves.foldl step x) := List.foldlRecOn moves step h fun x hx move _ => keeps x move hx
      rcases once _ move inv ((congrArg Account.row here).trans gone) with still | renews
      · refine .inl fun done hd => ?_
        rcases List.prefix_concat_iff.1 hd with rfl | hd
        · rw [List.foldl_append]; exact still.trans here
        · exact same done hd
      · exact .inr ⟨moves, move, [], rfl, same, renews⟩
    · exact .inr ⟨before, first, after ++ [move], by simp, same, renews⟩

variable {κ : Type} [HistoryCache κ]

/-- **Deleted until accepted anew.** Whatever calls enter a pool on an empty store, in whatever order they take their
steps and whatever the clock reads and faults refuse: when the history of an id ends in its deletion, the id has no row,
and no row, entry or event of it comes to be until a call that has checked a parcel under that id stores it. So it is in
a session, where that call hands over the parcel. It adds the new order's row, one entry and one event, and no more. -/
theorem deleted_until_accepted_anew (s : Site Memory κ) (id : Nat) :
    (∀ first more : List (Move Memory κ),
      let p := (Pool.opened s).run first
      (p.site.store.statuses id).getLast? = some .deleted →
        (p.site.store.account id).row = none ∧
          Rests Pool.step (·.site.store.account id) (Pool.Renews id) p more) ∧
      ∀ past more : List Call,
        let t := Call.run { s with store := .empty } past
        (t.store.statuses id).getLast? = some .deleted →
          (t.store.account id).row = none ∧ Rests Call.step (·.store.account id) (fun t c => c.Renews id t) t more := by
  constructor
  · intro first more p deleted
    have inv : Lifecycle.Inv p.site.store := Pool.opened_keeps Lifecycle.inv_step Lifecycle.inv_empty s first
    have sound : p.Sound := List.foldlRecOn first Pool.step (fun _ hq => absurd hq List.not_mem_nil)
      fun p hp move _ => (Pool.step_sound hp move).1
    refine ⟨inv.gone deleted, rests_of_gone (I := Pool.Sound) ?_ ?_ sound ?_ more⟩
    · exact fun p move hp => (Pool.step_sound hp move).1
    · exact fun p move hp gone => Pool.step_of_gone hp gone move
    · exact inv.gone deleted
  · intro past more t deleted
    have inv : Lifecycle.Inv t.store := Pool.session_keeps Lifecycle.inv_step Lifecycle.inv_empty s past
    refine ⟨inv.gone deleted, rests_of_gone (I := fun _ => True) ?_ ?_ trivial ?_ more⟩
    · exact fun _ _ _ => trivial
    · exact fun t c _ gone => Call.step_of_gone gone c
    · exact inv.gone deleted

end Runs

/-! ## An id that comes again -/

/-- Client 7 collects a parcel and brings it back, and the courier takes it away. -/
def lived : List Call :=
  [.accept lightParcel, .process 7 .issue [1], .process 7 .takeBack [1], .reclaim 1]

/-- That an order was deleted does not keep its id from coming again. -/
theorem deleted_id_comes_again :
    ¬ ∀ (past more : List Call) (id : Nat),
      .deleted ∈ (Call.run (opening TimedCache.empty) past).store.statuses id →
        (Call.run (opening TimedCache.empty) (past ++ more)).store.account id =
          (Call.run (opening TimedCache.empty) past).store.account id := by
  intro terminal
  have same := terminal lived [.accept lightParcel] 1 (by decide +kernel)
  have stored : ((Call.run (opening TimedCache.empty) (lived ++ [.accept lightParcel])).store.account 1).row ≠ none := by
    decide +kernel
  rw [same] at stored
  exact stored (by decide +kernel)

/-- Its parcel rests while others come and go, and then client 8 gets one under the same id. -/
theorem deleted_until_client_8 :
    ((Call.run (opening TimedCache.empty) lived).store.statuses 1).getLast? = some .deleted ∧
      Rests Call.step (·.store.account 1) (fun t c => c.Renews 1 t) (Call.run (opening TimedCache.empty) lived)
        [.reclaim 1, .accept { lightParcel with orderId := 2 }, .accept { lightParcel with userId := 8 },
          .process 8 .issue [1]] ∧
      (Call.run (opening TimedCache.empty) (lived ++ [.reclaim 1, .accept { lightParcel with orderId := 2 },
        .accept { lightParcel with userId := 8 }, .process 8 .issue [1]])).store.statuses 1 =
          [.expects, .accepted, .returned, .deleted, .expects, .accepted] := by
  have deleted : ((Call.run (opening TimedCache.empty) lived).store.statuses 1).getLast? = some .deleted := by
    decide +kernel
  exact ⟨deleted, ((deleted_until_accepted_anew (opening TimedCache.empty) 1).2 lived _ deleted).2, by decide +kernel⟩

end PickupPoint
