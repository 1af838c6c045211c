/-
Where no faults are set, the cache cannot be told from the store.

Every entry of the cache is the history of its order as it is stored now (`Truthful`): a call that changes an order
drops the history of it before it ends, and a look puts there what is stored. So a look answers what is stored, and an
order is not known as long as no parcel under its id has been accepted (`history_coherent`).
-/
import Mathlib.Data.List.Induction
import PickupPoint.Proofs.Calls
import PickupPoint.Proofs.Lifecycle

namespace PickupPoint

open Act LawfulCache

/-! ## Whose history there is -/

/-- a parcel under the id is accepted -/
def Change.Begins (id : Nat) : Change → Prop
  | .accept o => o.id = id
  | _ => False

theorem history_of_row {m : Memory} (inv : Lifecycle.Inv m) {id : Nat} {o : Order} (h : m.orders.find? id = some o) :
    m.orderHistory id ≠ [] := by
  have told := (((Lifecycle.of_inv inv).row_iff id).1 ⟨o, h⟩).1
  exact fun none => told (by rw [Memory.statuses, none]; rfl)

/-- Only a parcel that is accepted begins a history. -/
theorem begins_of_changes {m m' : Memory} {c : Change} (h : m.Changes c m') (inv : Lifecycle.Inv m) (id : Nat) :
    m'.orderHistory id ≠ [] ↔ m.orderHistory id ≠ [] ∨ c.Begins id := by
  obtain ⟨new, hnew, hc⟩ := h.orderHistory id
  have grown : ∀ id', (∃ o, m.orders.find? id' = some o) → c.orderId = id' →
      (m'.orderHistory id ≠ [] ↔ m.orderHistory id ≠ []) := by
    rintro id' ⟨o, found⟩ hid
    by_cases same : id' = id
    · have begun := history_of_row inv (same ▸ found)
      simp [hnew, begun]
    · rw [hnew, hc.2 (hid ▸ same), List.append_nil]
  cases h with
  | @accepted o st free new =>
    simp only [Change.orderId] at hc
    rw [hnew, Change.Begins, ne_eq, List.append_eq_nil_iff, hc]
    tauto
  | @processed o o' userId action now id' t st found own due after => simpa [Change.Begins] using grown id' ⟨o, found⟩ rfl
  | @reclaimed o now id' st found free => simpa [Change.Begins] using grown id' ⟨o, found⟩ rfl

theorem begins_of_changed {m m' : Memory} {cs : List Change} (h : m.Changed cs m') (inv : Lifecycle.Inv m) (id : Nat) :
    m'.orderHistory id ≠ [] ↔ m.orderHistory id ≠ [] ∨ ∃ c ∈ cs, c.Begins id := by
  induction h with
  | nil => simp
  | cons head _ ih =>
    rw [ih (Lifecycle.inv_step inv head), begins_of_changes head inv]
    simp [or_assoc]

/-! ## Which parcels were accepted -/

/-- the id that a record of an import came with -/
def recordId : Except RejectedRecord Acceptance → Nat
  | .ok a => a.orderId
  | .error rejected => rejected.orderId

/-- Whether a reply says that a parcel under the id was accepted. An import tells the ids of the records that failed, so
a record has gone through if an id is told less often than it came. -/
def Call.Accepted (id : Nat) : Call → Except Halt Reply → Prop
  | .accept a, .ok _ => a.orderId = id
  | .importAll records, .ok (.imported result) => result.errors.count id < (records.map recordId).count id
  | _, _ => False

section Fair

variable {κ : Type} [HistoryCache κ]

/-- a parcel under the id has been accepted in the session -/
def AcceptedIn (id : Nat) (s : Site Memory κ) (turns : List Turn) : Prop :=
  ∃ past c, past ++ [.call c] <+: turns ∧ c.Accepted id (c.perform (Turn.run s past)).1

theorem acceptedIn_concat (id : Nat) (s : Site Memory κ) (turns : List Turn) (t : Turn) :
    AcceptedIn id s (turns ++ [t]) ↔
      AcceptedIn id s turns ∨ ∃ c, t = .call c ∧ c.Accepted id (c.perform (Turn.run s turns)).1 := by
  constructor
  · rintro ⟨past, c, hpre, accepted⟩
    rcases List.prefix_concat_iff.1 hpre with whole | hpre
    · obtain ⟨rfl, hc⟩ := List.append_inj' whole rfl
      exact .inr ⟨c, (List.singleton_inj.1 hc).symm, accepted⟩
    · exact .inl ⟨past, c, hpre, accepted⟩
  · rintro (⟨past, c, hpre, accepted⟩ | ⟨c, rfl, accepted⟩)
    · exact ⟨past, c, hpre.trans (List.prefix_append turns [t]), accepted⟩
    · exact ⟨turns, c, List.prefix_refl _, accepted⟩

variable [LawfulCache κ] {s : Site Memory κ}

theorem accept_fair (a : Acceptance) (fair : Fair s) :
    ∃ r s', accept a s = (r, s') ∧ Fair s' ∧
      ((∃ o, r = .ok o ∧ o.id = a.orderId ∧ s.store.Changes (.accept o) s'.store) ∨
        ((∃ e, r = .error (.error e)) ∧ s'.store = s.store)) := by
  obtain ⟨law, answer⟩ := checkAcceptance_obeys a s
  unfold accept
  rw [bind_run]
  rcases hr : checkAcceptance a s with ⟨(e | text) | o, s₁⟩ <;> rw [hr] at law answer
  · exact ⟨_, s₁, rfl, fair.kept (keepsCache_of_aside law.toAside), .inr ⟨⟨e, rfl⟩, law.store⟩⟩
  · exact absurd rfl (fair.calm (keepsCache_of_aside law.toAside) text)
  obtain ⟨hid, new⟩ := answer o rfl
  have fair₁ := fair.kept (keepsCache_of_aside law.toAside)
  obtain ⟨⟨kept, undone⟩, change⟩ := storeAccepted_undone new s₁
  dsimp only
  rw [bind_run]
  rcases hw : storeAccepted o s₁ with ⟨(e | text) | _, s₂⟩ <;> rw [hw] at kept undone change
  · exact ⟨_, s₂, rfl, fair₁.kept kept, .inr ⟨⟨e, rfl⟩, (undone nofun).trans law.store⟩⟩
  · exact absurd rfl (fair₁.calm kept text)
  obtain ⟨fs, c, r, hd, -, dropped⟩ := dropHistory_run o.id s₂
  obtain ⟨rfl, hfs, serves, -⟩ := dropped (fair₁.kept kept)
  dsimp only
  rw [bind_run, hd]
  refine ⟨.ok o, _, rfl, ⟨hfs, serves⟩, .inl ⟨o, rfl, hid, ?_⟩⟩
  have stored : s₁.store = s.store := law.store
  exact stored ▸ change () rfl

/-- Of the records of an import those are accepted whose ids are not told. -/
theorem importRecord_fair (r : ImportResult) (record : Except RejectedRecord Acceptance) (fair : Fair s) :
    ∃ (r' : ImportResult) (s' : Site Memory κ) (os : List Order), importRecord r record s = (.ok r', s') ∧ Fair s' ∧
      s.store.Changed (os.map .accept) s'.store ∧
      ∀ id, (os.map (·.id)).count id + r'.errors.count id = r.errors.count id + [recordId record].count id := by
  unfold importRecord
  cases record with
  | error rejected =>
    refine ⟨r.addError rejected.orderId, _, [], rfl, ⟨fair.faultless, fair.serves⟩, .nil _, fun id => ?_⟩
    simp [ImportResult.addError, recordId]
  | ok a =>
    obtain ⟨answer, s', hr, fair', ⟨o, rfl, hid, change⟩ | ⟨⟨e, rfl⟩, same⟩⟩ := accept_fair a fair
    · refine ⟨r.addImported, s', [o], ?_, fair', change.changed, fun id => ?_⟩
      · dsimp only
        rw [bind_run, attempt_run, hr]; rfl
      · simp [ImportResult.addImported, recordId, hid, Nat.add_comm]
    · refine ⟨r.addError a.orderId, s', [], ?_, fair', same ▸ .nil _, fun id => ?_⟩
      · dsimp only
        rw [bind_run, attempt_run, hr]; rfl
      · simp [ImportResult.addError, recordId]

theorem importAll_fair (records : List (Except RejectedRecord Acceptance)) (r : ImportResult) (fair : Fair s) :
    ∃ (r' : ImportResult) (s' : Site Memory κ) (os : List Order), records.foldlM importRecord r s = (.ok r', s') ∧
      Fair s' ∧ s.store.Changed (os.map .accept) s'.store ∧
      ∀ id, (os.map (·.id)).count id + r'.errors.count id = r.errors.count id + (records.map recordId).count id := by
  induction records generalizing r s with
  | nil => exact ⟨r, s, [], rfl, fair, .nil _, fun id => by simp⟩
  | cons record records ih =>
    obtain ⟨r₁, s₁, os, hr, fair₁, changed, count⟩ := importRecord_fair r record fair
    obtain ⟨r₂, s₂, more, hr₂, fair₂, changed₂, count₂⟩ := ih r₁ fair₁
    refine ⟨r₂, s₂, os ++ more, ?_, fair₂, ?_, fun id => ?_⟩
    · rw [List.foldlM_cons, bind_run, hr]; exact hr₂
    · rw [List.map_append]; exact changed.append changed₂
    · have first := count id
      have rest := count₂ id
      rw [List.map_append, List.count_append, List.map_cons, ← List.singleton_append, List.count_append]
      omega

/-- A call begins the histories of the parcels that it says it accepted. -/
theorem begins_of_call (c : Call) (fair : Fair s) (inv : Lifecycle.Inv s.store) (id : Nat) :
    (c.perform s).2.store.orderHistory id ≠ [] ↔
      s.store.orderHistory id ≠ [] ∨ c.Accepted id (c.perform s).1 := by
  have quiet : ∀ c : Call, (Progress.start c).reads? = none → (Progress.start c).Still →
      ((c.perform s).2.store.orderHistory id ≠ [] ↔ s.store.orderHistory id ≠ []) := by
    intro c reads still
    obtain ⟨cs, changed, none, -⟩ := (course_ends reads s).changed
    rw [begins_of_changed changed inv]
    refine or_iff_left fun ⟨c, hc, begins⟩ => ?_
    cases c with
    | accept o => exact none still _ hc o rfl
    | process | reclaim => exact begins
  cases c with
  | accept a =>
    obtain ⟨r, s', hr, -, ends⟩ := accept_fair a fair
    have run : (Call.accept a).perform s = ((accept a s).1.map .order, (accept a s).2) := map_run ..
    rw [run, hr]
    rcases ends with ⟨o, rfl, hid, change⟩ | ⟨⟨e, rfl⟩, same⟩
    · rw [begins_of_changes change inv, Change.Begins, hid]; rfl
    · rw [same]; exact (or_iff_left not_false).symm
  | importAll records =>
    obtain ⟨r, s', os, hr, -, changed, count⟩ := importAll_fair records .none fair
    have run : (Call.importAll records).perform s = ((importAll records s).1.map .imported, (importAll records s).2) :=
      map_run ..
    rw [run, importAll, hr, begins_of_changed changed inv]
    refine or_congr_right ?_
    calc (∃ c ∈ os.map Change.accept, c.Begins id) ↔ id ∈ os.map (·.id) := by simp [Change.Begins]
      _ ↔ 0 < (os.map (·.id)).count id := List.count_pos_iff.symm
      _ ↔ r.errors.count id < (records.map recordId).count id := by
        have told := count id
        simp only [ImportResult.none, List.count_nil] at told
        omega
  | orderHistory id' =>
    rw [perform_orderHistory, (orderHistory_looked id' s).store]
    exact (or_iff_left not_false).symm
  | reclaim | process | list | returns | scroll | history | get =>
    refine (quiet _ ?_ ?_).trans (or_iff_left not_false).symm
    · rfl
    · trivial

/-! ## What the cache holds -/

/-- every history in the cache is as it is stored -/
structure Truthful (s : Site Memory κ) : Prop where
  fair : Fair s
  inv : Lifecycle.Inv s.store
  held : ∀ e id, Holds s.cache e → e.key = cacheKey id →
    s.store.orderHistory id ≠ [] ∧ e.value = historyText (s.store.orderHistory id)

/-- A call that changed an order has dropped its history when it ends. -/
theorem Truthful.after_call (h : Truthful s) {c : Call} (reads : (Progress.start c).reads? = none) :
    Truthful (c.perform s).2 := by
  have course := course_ends reads s
  obtain ⟨cs, changed, -, fair⟩ := course.changed
  obtain ⟨fair', dropped⟩ := fair h.fair
  refine ⟨fair', changed.keeps Lifecycle.inv_step h.inv, fun e id he key => ?_⟩
  -- what the cache still holds is of orders that the call did not change
  have others : ∀ c ∈ cs, c.orderId ≠ id := by
    rintro c hc rfl
    rcases dropped c hc with pending | gone
    · exact absurd pending List.not_mem_nil
    · exact gone e he key
  rw [changed.history_eq others]
  exact h.held e id (course.holds e he) key

theorem Truthful.after_look (h : Truthful s) (id : Nat) : Truthful (orderHistory id s).2 := by
  have looked := orderHistory_looked id s
  refine ⟨(looked.fair h.fair).1, looked.store ▸ h.inv, fun e id' he key => ?_⟩
  rw [looked.store]
  rcases looked.holds e he with old | ⟨some, rfl⟩
  · exact h.held e id' old key
  · obtain rfl : id = id' := cacheKey_injective key
    exact ⟨some, rfl⟩

theorem Truthful.step (h : Truthful s) (t : Turn) : Truthful (t.step s) := by
  cases t with
  | wait => exact ⟨⟨h.fair.faultless, h.fair.serves⟩, h.inv, h.held⟩
  | call c =>
    show Truthful (c.perform s).2
    rcases hc : (Progress.start c).reads? with _ | id
    · exact h.after_call hc
    · obtain rfl : c = .orderHistory id := by
        cases c <;> cases hc
        rfl
      rw [perform_orderHistory]
      exact h.after_look id

theorem Truthful.run (h : Truthful s) (turns : List Turn) : Truthful (Turn.run s turns) := by
  induction turns generalizing s with
  | nil => exact h
  | cons t turns ih => exact ih (h.step t)

theorem Fresh.truthful {none : κ} (fresh : Fresh none s) (nothing : ∀ e, ¬ Holds none e) (serves : Serves none) :
    Truthful s :=
  ⟨⟨fresh.faultless, fresh.cache ▸ serves⟩, fresh.store ▸ Lifecycle.inv_empty,
    fun e _ he => absurd (fresh.cache ▸ he) (nothing e)⟩

/-- every history in the cache is as it is stored, and the end of what is put there can be counted -/
structure Coherent (s : Site Memory κ) : Prop where
  fair : Fair s
  inv : Lifecycle.Inv s.store
  counts : ∀ n, Counts κ s.cacheTtl (s.clock.readings n)
  held : ∀ e id, Holds s.cache e → e.key = cacheKey id →
    s.store.orderHistory id ≠ [] ∧ e.value = historyText (s.store.orderHistory id)

theorem Coherent.truthful (h : Coherent s) : Truthful s := ⟨h.fair, h.inv, h.held⟩

theorem Truthful.coherent (h : Truthful s) (counts : ∀ n, Counts κ s.cacheTtl (s.clock.readings n)) : Coherent s :=
  ⟨h.fair, h.inv, counts, h.held⟩

theorem Coherent.run (h : Coherent s) (turns : List Turn) : Coherent (Turn.run s turns) := by
  have dated := Turn.run_dated turns s
  refine (h.truthful.run turns).coherent fun n => ?_
  rw [dated.cacheTtl, dated.readings]
  exact h.counts n

/-- A look answers what is stored, whatever the cache holds of it. -/
theorem Coherent.answer (h : Coherent s) {id : Nat}
    (decodes : ∀ {h}, historyOfText? (historyText (s.store.orderHistory id)) = some h → h = s.store.orderHistory id) :
    (orderHistory id s).1 = known (s.store.orderHistory id) := by
  have looked := orderHistory_looked id s
  unfold known
  rcases (looked.fair h.fair).2 (h.counts _) with ⟨history, ha⟩ | ⟨none, ha⟩
  · obtain ⟨rfl, some⟩ : history = s.store.orderHistory id ∧ s.store.orderHistory id ≠ [] := by
      rcases looked.answer history ha with ⟨rfl, some⟩ | ⟨e, held, key, -, read⟩
      · exact ⟨rfl, some⟩
      · obtain ⟨some, value⟩ := h.held e id held key
        exact ⟨decodes (value ▸ read), some⟩
    rw [ha, if_neg some]
  · rw [ha, if_pos none]

/-! ## Answers -/

/-- An order has a history as soon as a parcel under its id has been accepted. -/
theorem begins_of_run (h : Coherent s) (empty : s.store = .empty) (turns : List Turn) (id : Nat) :
    (Turn.run s turns).store.orderHistory id ≠ [] ↔ AcceptedIn id s turns := by
  induction turns using List.reverseRecOn with
  | nil =>
    refine iff_of_false (fun some => some ?_) fun ⟨past, c, hpre, _⟩ => ?_
    · show s.store.orderHistory id = []
      rw [empty]; rfl
    · have ended := List.prefix_nil.1 hpre
      simp at ended
  | append_singleton turns t ih =>
    rw [acceptedIn_concat, ← ih, Turn.run_concat]
    cases t with
    | wait => exact (or_iff_left fun ⟨c, hc, _⟩ => nomatch hc).symm
    | call c =>
      have here := h.run turns
      refine (begins_of_call c here.fair here.inv id).trans (or_congr_right ?_)
      exact ⟨fun accepted => ⟨c, rfl, accepted⟩, fun ⟨_, hc, accepted⟩ => by cases hc; exact accepted⟩

/-- What a session makes of the history of an order, if a cache that holds nothing is `none`. -/
structure Recounted (none : κ) (s : Site Memory κ) (turns : List Turn) (id : Nat) : Prop where
  /-- the rows of the order, oldest first -/
  found : AcceptedIn id s turns →
    (orderHistory id (Turn.run s turns)).1 = .ok ((Turn.run s turns).store.history.filter (·.orderId = id))
  unknown : ¬ AcceptedIn id s turns → (orderHistory id (Turn.run s turns)).1 = .error (.error .orderNotFound)
  ordered : ((Turn.run s turns).store.history.filter (·.orderId = id)).Pairwise (·.id < ·.id)
  /-- as if the cache held nothing -/
  cold : (orderHistory id { Turn.run s turns with cache := none }).1 = (orderHistory id (Turn.run s turns)).1

theorem ascending_of_inv {m : Memory} (inv : Lifecycle.Inv m) : m.history.Pairwise (·.id < ·.id) := by
  have ascending : (m.history.map (·.id)).Pairwise (· < ·) := by
    rw [inv.ids, List.pairwise_map]
    exact (List.pairwise_lt_range' (s := 1) (n := m.historyIds)).imp fun h => Int.ofNat_lt.2 h
  exact List.pairwise_map.1 ascending

theorem Coherent.recounted (h : Coherent s) (empty : s.store = .empty) (proper : ∀ n, (s.clock.readings n).Proper)
    {none : κ} (nothing : ∀ e, ¬ Holds none e) (serves : Serves none) (turns : List Turn) (id : Nat) :
    Recounted none s turns id := by
  have here := h.run turns
  have emptied : Coherent { Turn.run s turns with cache := none } :=
    ⟨⟨here.fair.faultless, serves⟩, here.inv, here.counts, fun e _ he => absurd he (nothing e)⟩
  have answer := here.answer (Turn.run_decodes empty proper turns id)
  have begun := begins_of_run h empty turns id
  refine ⟨fun accepted => ?_, fun missing => ?_, (ascending_of_inv here.inv).filter _, ?_⟩
  · rw [answer, known, if_neg (begun.2 accepted)]; rfl
  · rw [answer, known, if_pos (not_not.1 (mt begun.1 missing))]
  · rw [answer, emptied.answer (Turn.run_decodes empty proper turns id)]

end Fair

theorem Fresh.recounted {κ : Type} [HistoryCache κ] [LawfulCache κ] {none : κ} {s : Site Memory κ}
    (fresh : Fresh none s) (nothing : ∀ e, ¬ Holds none e) (serves : Serves none)
    (counts : ∀ n, Counts κ s.cacheTtl (s.clock.readings n)) (turns : List Turn) (id : Nat) :
    Recounted none s turns id := by
  have coherent : Coherent s := (fresh.truthful nothing serves).coherent counts
  exact coherent.recounted fresh.store fresh.proper nothing serves turns id

/-- **The cache is coherent.** In every session that begins with nothing, of the cache in memory as long as it can count
the end of what it keeps, and of a cache on a server for any time that histories are kept: a look answers the rows of
the order as they are stored, or that the order is not known if no parcel under its id was ever accepted, and it answers
the same if the cache holds nothing. -/
theorem history_coherent :
    (∀ s : Site Memory TimedCache, Fresh .empty s →
      (∀ n, (s.clock.readings n).second + s.cacheTtl ≤ TimedCache.lastSecond) →
        ∀ turns id, Recounted .empty s turns id) ∧
      ∀ s : Site Memory CacheServer, Fresh .empty s → ∀ turns id, Recounted .empty s turns id := by
  refine ⟨fun s fresh counts => ?_, fun s fresh => ?_⟩
  · exact fresh.recounted (fun _ => List.not_mem_nil) trivial counts
  · exact fresh.recounted (fun _ ⟨_, hx, _⟩ => List.not_mem_nil hx) rfl fun _ => trivial

/-- A parcel is collected, brought back, handed to the courier, and comes again; its history is read in between. -/
def comesAgain : List Turn :=
  [.call (.accept lightParcel), .call (.orderHistory 1), .call (.orderHistory 1), .wait,
    .call (.process 7 .issue [1]), .call (.orderHistory 1), .call (.process 7 .takeBack [1]), .call (.orderHistory 1),
    .call (.reclaim 1), .call (.orderHistory 1), .call (.accept lightParcel), .call (.orderHistory 1)]

theorem comesAgain_accepted : AcceptedIn 1 (opening TimedCache.empty) comesAgain := by
  refine ⟨[], .accept lightParcel, ⟨_, rfl⟩, ?_⟩
  have taken : ((Call.accept lightParcel).perform (opening TimedCache.empty)).1.toBool = true := by decide +kernel
  show (Call.accept lightParcel).Accepted 1 ((Call.accept lightParcel).perform (opening TimedCache.empty)).1
  rcases hr : ((Call.accept lightParcel).perform (opening TimedCache.empty)).1 with _ | _ <;> rw [hr] at taken
  · cases taken
  · rfl

/-- The answer in the end tells of both lives. -/
theorem history_coherent_of_second_parcel :
    Recounted .empty (opening TimedCache.empty) comesAgain 1 ∧ Recounted .empty (opening CacheServer.empty) comesAgain 1 ∧
      ∃ h, (orderHistory 1 (Turn.run (opening TimedCache.empty) comesAgain)).1 = .ok h ∧
        h.map (·.status) = [.expects, .accepted, .returned, .deleted, .expects] := by
  have inMemory := history_coherent.1 _ (opening_fresh _) opening_counts comesAgain 1
  exact ⟨inMemory, history_coherent.2 _ (opening_fresh _) comesAgain 1, _, inMemory.found comesAgain_accepted,
    by decide +kernel⟩

end PickupPoint
