/-
Couriers who hand over parcels under one id at the same time.

A courier's call looks whether the id is free, stores the parcel in a transaction of its own, and drops a history.
Several calls may have found the id free before any of them stores. The first to store wins (`Decided`): from then on
the id is taken, and every other call is told so, whether it has looked already or not. So in every interleaving, with
calls that have nothing to do with the id in between, one call ends with its order, which is then stored with one entry
and one event, and all others end with the same refusal (`single_winner`). No faults are set.
-/
import PickupPoint.Proofs.Prospects
import PickupPoint.Proofs.Races
import PickupPoint.Proofs.Verdicts

namespace PickupPoint

open Act

/-! ## Steps of a contender -/

section Steps

variable {κ : Type} [HistoryCache κ] {s : Site Memory κ} {a : Acceptance} {o : Order} {n : Nat} {q : Progress}

theorem step_faultless (sound : q.Sound) (hs : s.faults = []) : (q.step s).2.faults = [] := by
  obtain ⟨-, _, dated⟩ := step_obeys Dated sound s
  exact Fault.none_of_effects dated.effects hs

/-- The parcel would be accepted at that time if its id were free. -/
def Acceptance.ValidAt (a : Acceptance) (now : Instant) : Prop := ∃ o, a.judged now false = .ok o

/-- Apart from the deadline, the time decides nothing. -/
theorem Acceptance.ValidAt.before {a : Acceptance} {now other : Instant} (h : a.ValidAt now)
    (early : ¬ a.expiresAt ≤ other) : a.ValidAt other := by
  obtain ⟨o, valid⟩ := h
  refine ⟨o, ?_⟩
  unfold Acceptance.judged at valid ⊢
  by_cases past : a.expiresAt ≤ now
  · rw [if_pos past] at valid; cases valid
  · rw [if_neg past] at valid
    rw [if_neg early, valid]

/-- a call that has stored nothing yet, and will take so many steps at most -/
inductive Pending (a : Acceptance) : Nat → Progress → Prop
  | checking : Pending a 3 (.checking a .own)
  | storing {o : Order} {now : Instant} (judged : a.judged now false = .ok o) : Pending a 2 (.storing o .own)

/-- a call that has stored its order -/
inductive Winning (o : Order) : Nat → Progress → Prop
  | dropping : Winning o 1 (.dropping o .own)
  | ended (n : Nat) : Winning o n (.ended (.ok (.order o)))

/-- how a call ends that finds its id taken -/
def lost : Progress := .ended (.error (.error .orderAlreadyExists))

/-- Where the id is free, a call gets on, or stores its order. -/
theorem Pending.step_free (h : Pending a n q) (hs : s.faults = []) (free : s.store.orders.find? a.orderId = none)
    (valid : q = .checking a .own → a.ValidAt s.clock.current) :
    (Pending a (n - 1) (q.step s).1 ∧ (q.step s).2.store = s.store) ∨
      ∃ o now st, a.judged now false = .ok o ∧ Winning o (n - 1) (q.step s).1 ∧
        (q.step s).2.store =
          s.store.recorded (s.store.orders.put o) .orderAccepted (.courier o.userId) o o.status st := by
  cases h with
  | checking =>
    obtain ⟨o, judged⟩ := valid rfl
    have checked := checkAcceptance_run hs a
    rw [free, Option.isSome_none, judged] at checked
    left
    rw [Progress.step, Progress.advance, proceed_run, checked]
    exact ⟨.storing judged, rfl⟩
  | @storing o now judged =>
    have same : o.id = a.orderId := (judged_ok judged).2.1
    have stored := storeAccepted_free hs (same ▸ free)
    right
    rw [Progress.step, Progress.advance, proceed_run, stored]
    exact ⟨o, now, _, judged, .dropping, rfl⟩

/-- Where the id is taken, a call is told so. -/
theorem Pending.step_taken (h : Pending a n q) (hs : s.faults = []) (taken : s.store.orders.find? a.orderId = some o)
    (valid : q = .checking a .own → a.ValidAt s.clock.current) :
    (q.step s).1 = lost ∧ (q.step s).2.store = s.store := by
  cases h with
  | checking =>
    obtain ⟨x, judged⟩ := valid rfl
    have checked := checkAcceptance_run hs a
    rw [taken, Option.isSome_some, judged_taken judged] at checked
    rw [Progress.step, Progress.advance, proceed_run, checked]
    exact ⟨rfl, rfl⟩
  | @storing x now judged =>
    have same : x.id = a.orderId := (judged_ok judged).2.1
    have refused := storeAccepted_taken hs (o := x) (same ▸ taken)
    rw [Progress.step, Progress.advance, proceed_run, refused]
    exact ⟨rfl, rfl⟩

theorem Winning.step (quiet : DropsQuietly κ) (h : Winning o n q) (hs : s.faults = []) :
    Winning o (n - 1) (q.step s).1 ∧ (q.step s).2.store = s.store := by
  cases h with
  | dropping =>
    obtain ⟨s', dropped, asked⟩ := dropHistory_calm quiet o.id (Fault.calm_of_none hs)
    rw [Progress.step, Progress.advance, proceed_run, dropped]
    exact ⟨.ended 0, asked.store⟩
  | ended n => exact ⟨.ended (n - 1), rfl⟩

end Steps

/-! ## Beats of a pool -/

section Pools

variable {κ : Type} [HistoryCache κ] {p : Pool Memory κ} {id n i : Nat} {q : Progress}

/-- No faults are set, and of the calls only the first ones have to do with an id. -/
structure Sheltered (id n : Nat) (p : Pool Memory κ) : Prop where
  sound : p.Sound
  faultless : p.site.faults = []
  spared : ∀ i q, n ≤ i → p.calls[i]? = some q → q.Spares id

theorem Sheltered.beat (h : Sheltered id n p) {b : Beat} (entering : ∀ c, b = .enter c → c.Spares id) :
    Sheltered id n (p.beat b) := by
  have sound := Pool.beat_sound h.sound b
  cases b with
  | enter c =>
    refine ⟨sound, h.faultless, fun i q hi hq => ?_⟩
    change (p.calls ++ [Progress.start c])[i]? = some q at hq
    rcases Nat.lt_or_ge i p.calls.length with old | new
    · rw [List.getElem?_append_left old] at hq
      exact h.spared i q hi hq
    · rw [List.getElem?_append_right new] at hq
      rw [List.mem_singleton.1 (List.mem_of_getElem? hq)]
      exact spares_start (entering c rfl)
  | wait => exact ⟨sound, h.faultless, h.spared⟩
  | step j =>
    rcases hj : p.calls[j]? with _ | x
    · rw [Pool.beat_step_none hj]; exact h
    have hx := h.sound x (List.mem_of_getElem? hj)
    refine ⟨sound, ?_, fun i q hi hq => ?_⟩
    · rw [Pool.beat_step hj]
      exact step_faultless hx h.faultless
    · by_cases own : j = i
      · subst own
        rw [Pool.beat_own hj] at hq
        cases hq
        exact (step_spares hx (h.spared j x hi hj) p.site).1
      · rw [Pool.beat_step hj] at hq
        exact h.spared i q hi ((List.getElem?_set_ne own).symm.trans hq)

/-- What is told of the id changes by steps of those calls alone. -/
theorem Sheltered.account_eq (h : Sheltered id n p) {b : Beat} (aside : ∀ i, b = .step i → n ≤ i) :
    (p.beat b).site.store.account id = p.site.store.account id := by
  cases b with
  | enter c => rfl
  | wait => rfl
  | step j =>
    rcases hj : p.calls[j]? with _ | x
    · rw [Pool.beat_step_none hj]
    · rw [Pool.beat_step hj]
      exact (step_spares (h.sound x (List.mem_of_getElem? hj)) (h.spared j x (aside j rfl) hj) p.site).2

end Pools

/-! ## How a contest stands -/

section Contests

variable {κ : Type} [HistoryCache κ] {id : Nat} {as : List Acceptance} {acc : Account} {left : Nat → Nat}
  {p : Pool Memory κ} {w : Nat} {o : Order}

/-- No parcel is stored yet. Call `i` hands over the `i`-th parcel, and has so many steps left. -/
structure Undecided (id : Nat) (as : List Acceptance) (acc : Account) (left : Nat → Nat) (p : Pool Memory κ) : Prop where
  account : p.site.store.account id = acc
  pending : ∀ i a, as[i]? = some a → ∃ q, p.calls[i]? = some q ∧ Pending a (left i) q

/-- The order of the `w`-th parcel is stored. -/
structure Decided (id : Nat) (as : List Acceptance) (acc : Account) (left : Nat → Nat) (w : Nat) (o : Order)
    (p : Pool Memory κ) : Prop where
  fit : ∃ a now, as[w]? = some a ∧ a.judged now false = .ok o
  account : ∃ entryId st, p.site.store.account id = acc.withNew o entryId st
  winner : ∃ q, p.calls[w]? = some q ∧ Winning o (left w) q
  others : ∀ i a, as[i]? = some a → i ≠ w → ∃ q, p.calls[i]? = some q ∧ (Pending a (left i) q ∨ q = lost)

/-- the steps that are left after a beat -/
def spent (left : Nat → Nat) (b : Beat) (i : Nat) : Nat := left i - steps i [b]

theorem spent_own (left : Nat → Nat) (i : Nat) : spent left (.step i) i = left i - 1 := by rw [spent, steps_own]

theorem spent_other {b : Beat} {i : Nat} (other : b ≠ .step i) : spent left b i = left i := by
  rw [spent, steps_other other]
  rfl

/-- A beat is a step of a call that hands over one of the parcels, or it is not. -/
theorem contends_or_aside (as : List Acceptance) (b : Beat) :
    (∃ i a, b = .step i ∧ as[i]? = some a) ∨ ∀ i, b = .step i → as.length ≤ i := by
  by_cases contends : ∃ i a, b = .step i ∧ as[i]? = some a
  · exact .inl contends
  · refine .inr fun i hb => ?_
    by_contra within
    exact contends ⟨i, _, hb, List.getElem?_eq_getElem (Nat.lt_of_not_le within)⟩

theorem not_contends {b : Beat} (aside : ∀ i, b = .step i → as.length ≤ i) {i : Nat} {a : Acceptance}
    (ha : as[i]? = some a) : b ≠ .step i :=
  fun hb => absurd (List.getElem?_eq_some_iff.1 ha).1 (Nat.not_lt_of_le (aside i hb))

/-- A step that leaves the store alone changes nothing of what it tells. -/
theorem account_of_same {i : Nat} {q : Progress} (hq : p.calls[i]? = some q)
    (store : (q.step p.site).2.store = p.site.store) :
    (p.beat (.step i)).site.store.account id = p.site.store.account id := by
  rw [Pool.beat_step hq]
  exact congrArg (Memory.account · id) store

/-! ## Before a parcel is stored -/

namespace Undecided

theorem elsewhere (h : Undecided id as acc left p) {b : Beat} {i : Nat} {a : Acceptance} (ha : as[i]? = some a)
    (other : b ≠ .step i) : ∃ q, (p.beat b).calls[i]? = some q ∧ Pending a (spent left b i) q := by
  obtain ⟨q, hq, pending⟩ := h.pending i a ha
  exact ⟨q, Pool.beat_other hq other, (spent_other other).symm ▸ pending⟩

theorem aside (h : Undecided id as acc left p) (sheltered : Sheltered id as.length p) {b : Beat}
    (aside : ∀ i, b = .step i → as.length ≤ i) : Undecided id as acc (spent left b) (p.beat b) where
  account := (sheltered.account_eq aside).trans h.account
  pending _ _ ha := h.elsewhere ha (not_contends aside ha)

/-- A contender gets on, or its order is the first to be stored. -/
theorem contend (h : Undecided id as acc left p) (faultless : p.site.faults = []) (free : acc.row = none) {i : Nat}
    {a : Acceptance} (ha : as[i]? = some a) (same : a.orderId = id)
    (valid : p.calls[i]? = some (.checking a .own) → a.ValidAt p.site.clock.current) :
    Undecided id as acc (spent left (.step i)) (p.beat (.step i)) ∨
      ∃ o, Decided id as acc (spent left (.step i)) i o (p.beat (.step i)) := by
  obtain ⟨q, hq, pending⟩ := h.pending i a ha
  -- no contender has stored yet and nobody else may, so the id is as free as it was
  have gone : p.site.store.orders.find? a.orderId = none := by
    rw [same]
    exact (congrArg Account.row h.account).trans free
  have others : ∀ j x, as[j]? = some x → j ≠ i →
      ∃ q, (p.beat (.step i)).calls[j]? = some q ∧ Pending x (spent left (.step i) j) q :=
    fun j x hx apart => h.elsewhere hx fun here => apart (Beat.step.inj here).symm
  rcases pending.step_free faultless gone (fun hc => valid (hc ▸ hq)) with
    ⟨onward, store⟩ | ⟨o, now, st, judged, winning, store⟩
  · refine .inl ⟨(account_of_same hq store).trans h.account, fun j x hx => ?_⟩
    by_cases here : j = i
    · subst here
      obtain rfl := Option.some.inj (ha.symm.trans hx)
      exact ⟨_, Pool.beat_own hq, (spent_own left j).symm ▸ onward⟩
    · exact others j x hx here
  · obtain ⟨-, orderId, new⟩ := judged_ok judged
    have hid : o.id = id := orderId.trans same
    have account : (p.beat (.step i)).site.store.account id =
        acc.withNew o (p.site.store.historyIds + 1 : Nat) st := by
      rw [Pool.beat_step hq]
      dsimp only
      rw [store, ← h.account, ← hid, Memory.account_accepted _ new]
    refine .inr ⟨o, ⟨a, now, ha, judged⟩, ⟨_, st, account⟩, ?_, fun j x hx apart => ?_⟩
    · exact ⟨_, Pool.beat_own hq, (spent_own left i).symm ▸ winning⟩
    · obtain ⟨q, hq, pending⟩ := others j x hx apart
      exact ⟨q, hq, .inl pending⟩

end Undecided

/-! ## After a parcel is stored -/

namespace Decided

theorem elsewhere (h : Decided id as acc left w o p) {b : Beat} {i : Nat} {a : Acceptance} (ha : as[i]? = some a)
    (apart : i ≠ w) (other : b ≠ .step i) :
    ∃ q, (p.beat b).calls[i]? = some q ∧ (Pending a (spent left b i) q ∨ q = lost) := by
  obtain ⟨q, hq, stands⟩ := h.others i a ha apart
  exact ⟨q, Pool.beat_other hq other, (spent_other other).symm ▸ stands⟩

theorem winner_stays (h : Decided id as acc left w o p) {b : Beat} (other : b ≠ .step w) :
    ∃ q, (p.beat b).calls[w]? = some q ∧ Winning o (spent left b w) q := by
  obtain ⟨q, hq, winning⟩ := h.winner
  exact ⟨q, Pool.beat_other hq other, (spent_other other).symm ▸ winning⟩

theorem aside (h : Decided id as acc left w o p) (sheltered : Sheltered id as.length p) {b : Beat}
    (aside : ∀ i, b = .step i → as.length ≤ i) : Decided id as acc (spent left b) w o (p.beat b) where
  fit := h.fit
  account := sheltered.account_eq aside ▸ h.account
  winner := by
    obtain ⟨a, _, ha, -⟩ := h.fit
    exact h.winner_stays (not_contends aside ha)
  others _ _ ha apart := h.elsewhere ha apart (not_contends aside ha)

theorem winner_step (quiet : DropsQuietly κ) (h : Decided id as acc left w o p) (faultless : p.site.faults = []) :
    Decided id as acc (spent left (.step w)) w o (p.beat (.step w)) := by
  obtain ⟨q, hq, winning⟩ := h.winner
  obtain ⟨onward, store⟩ := winning.step quiet faultless
  refine ⟨h.fit, account_of_same hq store ▸ h.account, ?_, fun i a ha apart => ?_⟩
  · exact ⟨_, Pool.beat_own hq, (spent_own left w).symm ▸ onward⟩
  · exact h.elsewhere ha apart fun here => apart (Beat.step.inj here).symm

/-- Whoever else comes for the id is told that it is taken. -/
theorem rival_step (h : Decided id as acc left w o p) (faultless : p.site.faults = []) {i : Nat} {a : Acceptance}
    (ha : as[i]? = some a) (rival : i ≠ w) (same : a.orderId = id)
    (valid : p.calls[i]? = some (.checking a .own) → a.ValidAt p.site.clock.current) :
    Decided id as acc (spent left (.step i)) w o (p.beat (.step i)) := by
  obtain ⟨q, hq, stands⟩ := h.others i a ha rival
  -- a rival that looked in time is refused by the row when it stores
  have taken : p.site.store.orders.find? a.orderId = some o := by
    obtain ⟨entryId, st, account⟩ := h.account
    rw [same]
    exact congrArg Account.row account
  obtain ⟨refused, store⟩ : (q.step p.site).1 = lost ∧ (q.step p.site).2.store = p.site.store := by
    rcases stands with pending | rfl
    · exact pending.step_taken faultless taken fun hc => valid (hc ▸ hq)
    · exact ⟨rfl, rfl⟩
  refine ⟨h.fit, account_of_same hq store ▸ h.account, ?_, fun j x hx apart => ?_⟩
  · exact h.winner_stays fun here => rival (Beat.step.inj here)
  · by_cases here : i = j
    · subst here
      exact ⟨_, Pool.beat_own hq, .inr refused⟩
    · exact h.elsewhere hx apart fun hb => here (Beat.step.inj hb)

end Decided

/-- how a contest stands -/
def Stands (id : Nat) (as : List Acceptance) (acc : Account) (left : Nat → Nat) (p : Pool Memory κ) : Prop :=
  Undecided id as acc left p ∨ ∃ w o, Decided id as acc left w o p

theorem Stands.beat (quiet : DropsQuietly κ) (h : Stands id as acc left p) (sheltered : Sheltered id as.length p)
    (free : acc.row = none) (same : ∀ a ∈ as, a.orderId = id) {b : Beat}
    (valid : ∀ i a, b = .step i → as[i]? = some a → p.calls[i]? = some (.checking a .own) →
      a.ValidAt p.site.clock.current) : Stands id as acc (spent left b) (p.beat b) := by
  have faultless := sheltered.faultless
  rcases contends_or_aside as b with ⟨i, a, rfl, ha⟩ | aside
  · have orderId := same a (List.mem_of_getElem? ha)
    rcases h with undecided | ⟨w, o, decided⟩
    · exact (undecided.contend faultless free ha orderId (valid i a rfl ha)).imp_right fun won => ⟨i, won⟩
    · by_cases own : i = w
      · subst own
        exact .inr ⟨i, o, decided.winner_step quiet faultless⟩
      · exact .inr ⟨w, o, decided.rival_step faultless ha own orderId (valid i a rfl ha)⟩
  · rcases h with undecided | ⟨w, o, decided⟩
    · exact .inl (undecided.aside sheltered aside)
    · exact .inr ⟨w, o, decided.aside sheltered aside⟩

/-- the steps that are left of three -/
theorem spent_steps (beats : List Beat) (b : Beat) :
    spent (fun i => 3 - steps i beats) b = fun i => 3 - steps i (beats ++ [b]) := by
  funext i
  rw [spent, steps_concat, Nat.sub_sub]

end Contests

/-! ## A whole contest -/

/-- calls that hand over parcels, beside others -/
def Pool.contest {κ : Type} (s : Site Memory κ) (as : List Acceptance) (others : List Progress) : Pool Memory κ :=
  ⟨s, as.map (.start <| .accept ·) ++ others⟩

theorem Pool.contest_sound {κ : Type} (s : Site Memory κ) (as : List Acceptance) {others : List Progress}
    (beside : ∀ q ∈ others, q.Sound) : (Pool.contest s as others).Sound := by
  intro q hq
  rcases List.mem_append.1 hq with hq | hq
  · obtain ⟨a, -, rfl⟩ := List.mem_map.1 hq
    exact sound_start _
  · exact beside q hq

theorem Pool.contest_undecided {κ : Type} {id : Nat} (s : Site Memory κ) (as : List Acceptance)
    (others : List Progress) :
    Undecided id as (s.store.account id) (fun _ => 3) (Pool.contest s as others) where
  account := rfl
  pending i a ha := by
    have there : i < as.length := (List.getElem?_eq_some_iff.1 ha).1
    refine ⟨.checking a .own, ?_, .checking⟩
    show (as.map _ ++ others)[i]? = _
    rw [List.getElem?_append_left (by simpa using there), List.getElem?_map, ha]
    rfl

/-- Parcels are handed over under one free id. Each of them is valid when its call looks, and whatever else goes on has
nothing to do with the id. -/
structure Contest {κ : Type} [HistoryCache κ] (id : Nat) (s : Site Memory κ) (as : List Acceptance)
    (others : List Progress) (beats : List Beat) : Prop where
  faultless : s.faults = []
  free : s.store.orders.find? id = none
  contested : as ≠ []
  same : ∀ a ∈ as, a.orderId = id
  beside : ∀ q ∈ others, q.Sound ∧ q.Spares id
  entering : ∀ c, .enter c ∈ beats → c.Spares id
  valid : ∀ past i a, past ++ [.step i] <+: beats → as[i]? = some a →
    ((Pool.contest s as others).play past).calls[i]? = some (.checking a .own) →
    a.ValidAt ((Pool.contest s as others).play past).site.clock.current

section Contests

variable {κ : Type} [HistoryCache κ] {id : Nat} {s : Site Memory κ} {as : List Acceptance} {others : List Progress}
  {beats more : List Beat}

namespace Contest

theorem of_append (h : Contest id s as others (beats ++ more)) : Contest id s as others beats where
  faultless := h.faultless
  free := h.free
  contested := h.contested
  same := h.same
  beside := h.beside
  entering c hc := h.entering c (List.mem_append_left _ hc)
  valid past i a before := h.valid past i a (before.trans (List.prefix_append _ _))

theorem sheltered (h : Contest id s as others beats) : Sheltered id as.length (Pool.contest s as others) where
  sound := Pool.contest_sound s as fun q hq => (h.beside q hq).1
  faultless := h.faultless
  spared i q hi hq := by
    have aside := (List.getElem?_append_right (by simpa using hi)).symm.trans hq
    exact (h.beside q (List.mem_of_getElem? aside)).2

theorem stands (quiet : DropsQuietly κ) (h : Contest id s as others beats) :
    Sheltered id as.length ((Pool.contest s as others).play beats) ∧
      Stands id as (s.store.account id) (fun i => 3 - steps i beats) ((Pool.contest s as others).play beats) := by
  induction beats using List.reverseRecOn with
  | nil => exact ⟨h.sheltered, .inl (Pool.contest_undecided s as others)⟩
  | append_singleton beats b ih =>
    obtain ⟨sheltered, stands⟩ := ih h.of_append
    rw [Pool.play_concat, ← spent_steps]
    refine ⟨sheltered.beat fun c hb => h.entering c (by simp [hb]), ?_⟩
    have valid := fun i a (hb : b = .step i) => h.valid beats i a (hb ▸ List.prefix_rfl)
    exact stands.beat quiet sheltered h.free h.same valid

end Contest

/-- The `w`-th parcel is stored, and the calls of all others are told that there is an order already. -/
structure Won (as : List Acceptance) (w : Nat) (o : Order) (calls : List Progress) : Prop where
  fit : ∃ a now, as[w]? = some a ∧ a.judged now false = .ok o
  winner : calls[w]? = some (.ended (.ok (.order o)))
  losers : ∀ i < as.length, i ≠ w → calls[i]? = some (.ended (.error (.error .orderAlreadyExists)))

/-- the call has ended, or taken as many steps as one can -/
def Through (i : Nat) (beats : List Beat) (calls : List Progress) : Prop :=
  3 ≤ steps i beats ∨ ∃ r, calls[i]? = some (.ended r)

theorem Through.done {i : Nat} {q : Progress} {calls : List Progress} (h : Through i beats calls)
    (hq : calls[i]? = some q) : 3 - steps i beats = 0 ∨ ∃ r, q = .ended r :=
  h.imp Nat.sub_eq_zero_of_le fun ⟨r, ended⟩ => ⟨r, Option.some.inj (hq.symm.trans ended)⟩

theorem Pending.not_done {a : Acceptance} {n : Nat} {q : Progress} (h : Pending a n q) :
    ¬ (n = 0 ∨ ∃ r, q = .ended r) := by
  cases h <;> rintro (h | ⟨r, h⟩) <;> cases h

theorem Winning.of_done {o : Order} {n : Nat} {q : Progress} (h : Winning o n q) (done : n = 0 ∨ ∃ r, q = .ended r) :
    q = .ended (.ok (.order o)) := by
  cases h with
  | dropping => rcases done with h | ⟨r, h⟩ <;> cases h
  | ended => rfl

/-- **Single winner.** Parcels are handed over under one id that is free, each of them valid when its call looks, and
their calls take their steps in any order, with whatever goes on that has nothing to do with the id in between. Once all
of these calls have ended, which takes each of them three steps at most, one has ended with its order and the others
with the refusal that there is an order already. What is told of the id is the winner's order, one entry and one event
more. -/
theorem single_winner (quiet : DropsQuietly κ) (contest : Contest id s as others beats)
    (through : ∀ i < as.length, Through i beats ((Pool.contest s as others).play beats).calls) :
    ∃ w o, Won as w o ((Pool.contest s as others).play beats).calls ∧
      ∃ entryId st, ((Pool.contest s as others).play beats).site.store.account id =
        (s.store.account id).withNew o entryId st := by
  obtain ⟨-, undecided | ⟨w, o, decided⟩⟩ := contest.stands quiet
  · obtain ⟨a, rest, rfl⟩ := List.exists_cons_of_ne_nil contest.contested
    obtain ⟨q, hq, pending⟩ := undecided.pending 0 a rfl
    exact absurd ((through 0 (Nat.zero_lt_succ _)).done hq) pending.not_done
  refine ⟨w, o, ⟨decided.fit, ?_, fun i hi apart => ?_⟩, decided.account⟩
  · obtain ⟨a, now, ha, -⟩ := decided.fit
    obtain ⟨q, hq, winning⟩ := decided.winner
    exact winning.of_done ((through w (List.getElem?_eq_some_iff.1 ha).1).done hq) ▸ hq
  · obtain ⟨q, hq, pending | rfl⟩ := decided.others i as[i] (List.getElem?_eq_getElem hi) apart
    · exact absurd ((through i hi).done hq) pending.not_done
    · exact hq

/-! ## Two clients -/

theorem Pool.play_readings {p : Pool Memory κ} (sound : p.Sound) (beats : List Beat) :
    (p.play beats).site.clock.readings = p.site.clock.readings := by
  induction beats generalizing p with
  | nil => rfl
  | cons b beats ih =>
    refine (ih (Pool.beat_sound sound b)).trans ?_
    cases b with
    | enter | wait => rfl
    | step j =>
      rcases hj : p.calls[j]? with _ | q
      · rw [Pool.beat_step_none hj]
      · obtain ⟨-, _, dated⟩ := step_obeys Dated (sound q (List.mem_of_getElem? hj)) p.site
        rw [Pool.beat_step hj]
        exact dated.readings

/-- Parcels that are valid whatever the time is are so when their calls look. -/
theorem Pool.valid_throughout (sound : (Pool.contest s as others).Sound)
    (valid : ∀ a ∈ as, ∀ n, a.ValidAt (s.clock.readings n)) (past : List Beat) {a : Acceptance} (ha : a ∈ as) :
    a.ValidAt ((Pool.contest s as others).play past).site.clock.current := by
  rw [Clock.current, Pool.play_readings sound]
  exact valid a ha _

end Contests

/-- what the clients 7 and 8 have sent under id 1 -/
def twoParcelsOfOneId : List Acceptance :=
  [lightParcel, { lightParcel with userId := 8, price := .ofNat 20, package := "box" }]

/-- Both calls look before one of them stores, and client 7 collects parcel 2 in between. -/
def bothLookFirst : List Beat :=
  [.step 0, .step 2, .step 1, .step 2, .enter (.process 7 .issue [2]), .step 2, .step 3, .step 1, .step 3, .step 0,
    .wait, .step 1, .step 3]

/-- a courier who hands over another parcel -/
def besideOne : List Progress := [.start (.accept { lightParcel with orderId := 2 })]

/-- the calls of the courier who hands over both, and of one who hands over parcel 2 -/
def afterBoth : Pool Memory TimedCache :=
  (Pool.contest (opening TimedCache.empty) twoParcelsOfOneId besideOne).play bothLookFirst

theorem contest_of_two : Contest 1 (opening TimedCache.empty) twoParcelsOfOneId besideOne bothLookFirst where
  faultless := rfl
  free := rfl
  contested := List.cons_ne_nil _ _
  same := by decide
  beside q hq := by
    obtain rfl := List.mem_singleton.1 hq
    exact ⟨sound_start _, spares_start (show 2 ≠ 1 by decide)⟩
  entering c hc := by
    have entered : c = .process 7 .issue [2] := by simpa [bothLookFirst] using hc
    rw [entered]
    show 1 ∉ [2]
    decide
  valid past i a _ ha _ := by
    refine Pool.valid_throughout (Pool.contest_sound _ _ ?_) ?_ past (List.mem_of_getElem? ha)
    · intro q hq
      obtain rfl := List.mem_singleton.1 hq
      exact sound_start _
    · intro a ha n
      have early : ¬ (⟨3600, 0⟩ : Instant) ≤ ⟨min n 100, 0⟩ := by
        refine not_not.2 (.inl ?_)
        show min (n : Int) 100 < 3600
        omega
      simp only [twoParcelsOfOneId, List.mem_cons, List.not_mem_nil, or_false] at ha
      obtain ⟨valid, deadline⟩ : a.ValidAt ⟨0, 0⟩ ∧ a.expiresAt = ⟨3600, 0⟩ := by
        rcases ha with rfl | rfl <;> exact ⟨⟨_, rfl⟩, rfl⟩
      exact valid.before (deadline ▸ early)

theorem both_through : ∀ i < twoParcelsOfOneId.length, Through i bothLookFirst afterBoth.calls
  | 0, _ => .inr (ended_of_hasEnded (by decide +kernel))
  | 1, _ => .inl (by decide)

/-- The parcel of client 8 is stored, whose call was the last to look. -/
theorem single_winner_of_two :
    DropsQuietly TimedCache ∧ Contest 1 (opening TimedCache.empty) twoParcelsOfOneId besideOne bothLookFirst ∧
      (∀ i < twoParcelsOfOneId.length, Through i bothLookFirst afterBoth.calls) ∧
      ∃ w o, Won twoParcelsOfOneId w o afterBoth.calls ∧ o.userId = 8 ∧
        afterBoth.site.store.history.map (·.status) = [.expects, .expects, .accepted] := by
  have quiet := caches_dropQuietly.1
  obtain ⟨w, o, won, entryId, st, account⟩ := single_winner quiet contest_of_two both_through
  have stored : (afterBoth.site.store.account 1).row.map (·.userId) = some 8 := by decide +kernel
  have row : (afterBoth.site.store.account 1).row = some o := congrArg Account.row account
  rw [row] at stored
  exact ⟨quiet, contest_of_two, both_through, w, o, won, Option.some.inj stored, by decide +kernel⟩

end PickupPoint
