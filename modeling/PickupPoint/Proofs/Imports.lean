/-
Imports: each record by itself, while the clock stands still and no faults are set.

A record is admitted on a store if it is a parcel that passes all checks there (`Memory.Admits`). One that is not admitted
leaves the store as it is, and one that is takes its id. So a record goes through just if it was admitted on the store
before the import and no record before it that was has the same id (`Memory.AdmitsAfter`, `Imported.admits_iff`).

What goes through goes through again without the others: an order is free on every store that differs in times and event
ids alone, and then a fitting record is stored as the same order there (`importRecords_again`). `import_independent` puts
it together.
-/
import Mathlib.Data.Bool.Count
import Mathlib.Data.List.Count
import PickupPoint.Proofs.Admission
import PickupPoint.Proofs.Batch
import PickupPoint.Proofs.Coherence

namespace PickupPoint

open Act
open List (Forall₂)

/-! ## Positions -/

theorem length_marked {α : Type} {mask : List Bool} {l : List α} (h : mask.length = l.length) :
    (marked mask l).length = mask.count true := by
  induction mask generalizing l with
  | nil => rfl
  | cons b mask ih =>
    obtain _ | ⟨a, l⟩ := l
    · cases h
    · have rest := ih (Nat.succ.inj h)
      cases b <;> simp [rest]

/-- What is marked and what is not makes up the list. -/
theorem count_add_marked {α : Type} {mask : List Bool} {l : List α} (h : mask.length = l.length) :
    mask.count true + (marked (mask.map (!·)) l).length = l.length := by
  have others : (mask.map (!·)).count true = mask.count false :=
    List.count_map_of_injective mask (!·) (fun _ _ => Bool.not_inj) false
  rw [length_marked (by simpa using h), others, ← h]
  exact List.count_not_add_count mask false

/-- the result after more records with some ids, of which the marked ones go through -/
def ImportResult.told (r : ImportResult) (mask : List Bool) (ids : List Nat) : ImportResult :=
  ⟨r.imported + mask.count true, r.errors ++ marked (mask.map (!·)) ids⟩

theorem ImportResult.told_nil (r : ImportResult) (ids : List Nat) : r.told [] ids = r := by simp [told]

theorem ImportResult.told_cons (r : ImportResult) (b : Bool) (mask : List Bool) (id : Nat) (ids : List Nat) :
    (if b then r.addImported else r.addError id).told mask ids = r.told (b :: mask) (id :: ids) := by
  cases b <;> simp [told, addImported, addError, Nat.add_comm, Nat.add_left_comm]

theorem ImportResult.none_told (mask : List Bool) (ids : List Nat) :
    none.told mask ids = ⟨mask.count true, marked (mask.map (!·)) ids⟩ := by simp [told, none]

/-! ## Records -/

/-- The record is a parcel that passes all checks. -/
def Memory.Admits (now : Instant) (m : Memory) (record : Except RejectedRecord Acceptance) : Prop :=
  ∃ a, record = .ok a ∧ ∀ check ∈ a.checks now m, check.1

/-- The record is admitted, and no record that was admitted before it has its id. -/
def Memory.AdmitsAfter (now : Instant) (m : Memory) (done : List (Except RejectedRecord Acceptance))
    (record : Except RejectedRecord Acceptance) : Prop :=
  m.Admits now record ∧ ∀ earlier ∈ done, m.Admits now earlier → recordId earlier ≠ recordId record

/-- the order that a record is stored as where its id is free -/
def Fits (now : Instant) (record : Except RejectedRecord Acceptance) (o : Order) : Prop :=
  ∃ a, record = .ok a ∧ a.judged now false = .ok o

variable {now : Instant} {m m' m'' : Memory} {record : Except RejectedRecord Acceptance}
  {done records : List (Except RejectedRecord Acceptance)} {o : Order} {os : List Order}

theorem Fits.id (h : Fits now record o) : o.id = recordId record := by
  obtain ⟨a, rfl, judged⟩ := h
  exact (judged_ok judged).2.1

theorem ids_of_fits (h : Forall₂ (Fits now) records os) : os.map (·.id) = records.map recordId := by
  induction h with
  | nil => rfl
  | cons head _ ih => rw [List.map_cons, List.map_cons, head.id, ih]

theorem Acceptance.passes_iff {a : Acceptance} :
    (∀ check ∈ a.checks now m, check.1) ↔ ∃ o, a.judged now (m.orders.find? a.orderId).isSome = .ok o := by
  constructor
  · intro passes
    obtain ⟨package, -, judged⟩ := judged_passed passes
    exact ⟨_, judged⟩
  · rintro ⟨o, judged⟩
    refine (pass_or_firstFails _).resolve_right ?_
    rintro ⟨code, fails⟩
    obtain ⟨e, refused, -⟩ := judged_refused fails
    cases judged.symm.trans refused

/-- A store tells of a record whether its id is free, and no more. -/
theorem Memory.admits_iff : m.Admits now record ↔ (∃ o, Fits now record o) ∧ m.orders.find? (recordId record) = none := by
  constructor
  · rintro ⟨a, rfl, passes⟩
    obtain ⟨o, judged⟩ := Acceptance.passes_iff.1 passes
    have free : m.orders.find? a.orderId = none := by simpa using (judged_ok judged).1
    rw [free] at judged
    exact ⟨⟨o, a, rfl, judged⟩, free⟩
  · rintro ⟨⟨o, a, rfl, judged⟩, free⟩
    refine ⟨a, rfl, Acceptance.passes_iff.2 ⟨o, ?_⟩⟩
    rw [show m.orders.find? a.orderId = none from free]
    exact judged

/-! ## Records after others -/

theorem Memory.Changes.free (h : m.Changes (.accept o) m') : m.orders.find? o.id = none := by
  cases h with
  | accepted st free new => exact free

theorem Memory.Changes.find?_accepted (h : m.Changes (.accept o) m') (id : Nat) :
    m'.orders.find? id = if o.id = id then some o else m.orders.find? id := by
  cases h with
  | accepted st free new => exact m.orders.find?_put o id

/-- what records have made of a store: the ids of those that were admitted are taken -/
def Imported (now : Instant) (m : Memory) (done : List (Except RejectedRecord Acceptance)) (m' : Memory) : Prop :=
  ∀ id, m'.orders.find? id = none ↔
    m.orders.find? id = none ∧ ∀ record ∈ done, m.Admits now record → recordId record ≠ id

theorem Imported.start (now : Instant) (m : Memory) : Imported now m [] m :=
  fun _ => (and_iff_left nofun).symm

theorem Imported.admits_iff (h : Imported now m done m') : m'.Admits now record ↔ m.AdmitsAfter now done record := by
  rw [Memory.AdmitsAfter, Memory.admits_iff, Memory.admits_iff (m := m), h (recordId record), and_assoc]

theorem Imported.stored (h : Imported now m done m') (admits : m.AdmitsAfter now done record) (fits : Fits now record o)
    (change : m'.Changes (.accept o) m'') : Imported now m (done ++ [record]) m'' := by
  intro id
  have taken : m''.orders.find? id = none ↔ m'.orders.find? id = none ∧ recordId record ≠ id := by
    rw [change.find?_accepted, fits.id]
    split_ifs with here <;> simp [here]
  rw [taken, h id]
  simp [or_imp, forall_and, admits.1, and_assoc]

/-- A record that was not admitted makes no difference. -/
theorem Imported.skipped (h : Imported now m done m') (refused : ¬ m.AdmitsAfter now done record) :
    Imported now m (done ++ [record]) m' := by
  intro id
  rw [h id]
  refine and_congr_right fun _ => ⟨fun others => ?_, fun others earlier mem => others earlier (by simp [mem])⟩
  -- a record that was admitted at first was refused for one before it with the same id
  have last : m.Admits now record → recordId record ≠ id := by
    rintro admits rfl
    exact refused ⟨admits, others⟩
  intro earlier mem
  rcases List.mem_append.1 mem with mem | mem
  · exact others earlier mem
  · rwa [List.mem_singleton.1 mem]

theorem not_mem_of_taken {id : Nat} (taken : m.orders.find? id ≠ none) (changed : m.Changed (os.map .accept) m') :
    id ∉ os.map (·.id) := by
  induction os generalizing m with
  | nil => exact List.not_mem_nil
  | cons o os ih =>
    cases changed with
    | cons head tail =>
      have other : id ≠ o.id := fun same => taken (same ▸ head.free)
      refine List.not_mem_cons_of_ne_of_not_mem other (ih ?_ tail)
      rwa [head.find?_accepted, if_neg other.symm]

/-- No id is taken twice. -/
theorem nodup_of_accepted (changed : m.Changed (os.map .accept) m') : (os.map (·.id)).Nodup := by
  induction os generalizing m with
  | nil => exact List.nodup_nil
  | cons o os ih =>
    cases changed with
    | cons head tail =>
      refine List.nodup_cons.2 ⟨not_mem_of_taken ?_ tail, ih tail⟩
      rw [head.find?_accepted, if_pos rfl]
      exact nofun

/-! ## A parcel by itself -/

section Parcels

variable {κ : Type} [HistoryCache κ] {s : Site Memory κ} (hs : s.faults = []) {a : Acceptance}
include hs

/-- A parcel that passes its checks is stored. -/
theorem accept_passed (quiet : DropsQuietly κ)
    (passed : a.judged s.clock.current (s.store.orders.find? a.orderId).isSome = .ok o) :
    ∃ t, accept a s = (.ok o, t) ∧ t.faults = [] ∧ t.clock.readings = s.clock.readings ∧
      s.clock.taken < t.clock.taken ∧ s.store.Changes (.accept o) t.store := by
  obtain ⟨unknown, id, new⟩ := judged_ok passed
  have free : s.store.orders.find? o.id = none := by simpa [id] using unknown
  have checked := checkAcceptance_run hs a
  rw [passed] at checked
  have stored := storeAccepted_free (s := { s with clock := s.clock.advance }) hs free
  obtain ⟨t, dropped, asked⟩ := dropHistory_calm quiet o.id (s := (storeAccepted o _).2)
    (Fault.calm_of_none (by rw [stored]; exact hs))
  rw [stored] at dropped asked
  refine ⟨t, ?_, Fault.none_of_effects asked.effects hs, asked.readings, Nat.le_of_succ_le asked.taken, ?_⟩
  · rw [accept, bind_run, checked]
    dsimp only
    rw [bind_run, stored]
    dsimp only
    rw [bind_run, dropped]
    rfl
  · rw [asked.store]
    exact .accepted _ free new

/-- One that does not is refused, and that is counted. -/
theorem accept_refused {e : Error}
    (refused : a.judged s.clock.current (s.store.orders.find? a.orderId).isSome = .error e) :
    accept a s = (.error (.error e), { s with clock := s.clock.advance, metrics := s.metrics.countFailure e.code }) := by
  have checked := checkAcceptance_run hs a
  rw [refused] at checked
  rw [accept, bind_run, checked]

end Parcels

/-! ## A record by itself -/

section Records

variable {κ : Type} [HistoryCache κ] {s t : Site Memory κ} {a : Acceptance}

theorem importRecord_accepted (h : accept a s = (.ok o, t)) (r : ImportResult) :
    importRecord r (.ok a) s = (.ok r.addImported, t) := by
  unfold importRecord
  dsimp only
  rw [bind_run, attempt_run, h]
  rfl

theorem importRecord_told {e : Error} (h : accept a s = (.error (.error e), t)) (r : ImportResult) :
    importRecord r (.ok a) s = (.ok (r.addError a.orderId), t) := by
  unfold importRecord
  dsimp only
  rw [bind_run, attempt_run, h]
  rfl

theorem importRecord_unread (rejected : RejectedRecord) (r : ImportResult) (s : Site Memory κ) :
    importRecord r (.error rejected) s =
      (.ok (r.addError rejected.orderId), { s with metrics := s.metrics.countFailure rejected.cause.code }) :=
  rfl

end Records

/-! ## While the clock stands still -/

variable {κ : Type}

/-- No faults are set, and the clock stands still. -/
structure Site.StandsAt (now : Instant) (s : Site Memory κ) : Prop where
  faultless : s.faults = []
  clock : ∀ n, s.clock.taken ≤ n → s.clock.readings n = now

variable {s : Site Memory κ}

theorem Site.StandsAt.current (h : s.StandsAt now) : s.clock.current = now := h.clock _ le_rfl

theorem Site.StandsAt.advanced (h : s.StandsAt now) : Site.StandsAt now { s with clock := s.clock.advance } :=
  ⟨h.faultless, fun n taken => h.clock n (Nat.le_of_succ_le taken)⟩

variable [HistoryCache κ]

/-- A parcel that fits, under an id that is free, is stored. -/
theorem accept_fitting (quiet : DropsQuietly κ) (h : s.StandsAt now) {a : Acceptance} (fits : a.judged now false = .ok o)
    (free : s.store.orders.find? a.orderId = none) :
    ∃ t, accept a s = (.ok o, t) ∧ t.StandsAt now ∧ s.store.Changes (.accept o) t.store := by
  have passed : a.judged s.clock.current (s.store.orders.find? a.orderId).isSome = .ok o := by
    rw [h.current, free]
    exact fits
  obtain ⟨t, accepted, faultless, readings, taken, change⟩ := accept_passed h.faultless quiet passed
  refine ⟨t, accepted, ⟨faultless, fun n later => ?_⟩, change⟩
  rw [readings]
  exact h.clock n (taken.le.trans later)

theorem importRecord_fitting (quiet : DropsQuietly κ) (h : s.StandsAt now) (fits : Fits now record o)
    (free : s.store.orders.find? o.id = none) :
    ∃ t, (∀ r, importRecord r record s = (.ok r.addImported, t)) ∧ t.StandsAt now ∧
      s.store.Changes (.accept o) t.store := by
  rw [fits.id] at free
  obtain ⟨a, rfl, judged⟩ := fits
  obtain ⟨t, accepted, stands, change⟩ := accept_fitting quiet h judged free
  exact ⟨t, importRecord_accepted accepted, stands, change⟩

/-- A record that is not admitted is told, and leaves the store as it is. -/
theorem importRecord_refused (h : s.StandsAt now) (refused : ¬ s.store.Admits now record) :
    ∃ t, (∀ r, importRecord r record s = (.ok (r.addError (recordId record)), t)) ∧ t.StandsAt now ∧
      t.store = s.store := by
  cases record with
  | error rejected =>
    exact ⟨_, fun r => importRecord_unread rejected r s, ⟨h.faultless, h.clock⟩, rfl⟩
  | ok a =>
    rcases judged : a.judged now (s.store.orders.find? a.orderId).isSome with e | o
    · have tried := accept_refused h.faultless (h.current.symm ▸ judged)
      exact ⟨_, importRecord_told tried, ⟨h.advanced.faultless, h.advanced.clock⟩, rfl⟩
    · exact absurd ⟨a, rfl, Acceptance.passes_iff.2 ⟨o, judged⟩⟩ refused

/-! ## Whole imports -/

/-- What records come to after others, if those that are marked go through and are stored as some orders. -/
structure Sifts (now : Instant) (m : Memory) (done records : List (Except RejectedRecord Acceptance)) (mask : List Bool)
    (os : List Order) (m' m'' : Memory) : Prop where
  length : mask.length = records.length
  positions : ∀ i record, records[i]? = some record →
    (mask[i]? = some true ↔ m.AdmitsAfter now (done ++ records.take i) record)
  fits : Forall₂ (Fits now) (marked mask records) os
  changed : m'.Changed (os.map .accept) m''

theorem Sifts.one {b : Bool} {m₁ m₂ : Memory} (admits : b = true ↔ m.AdmitsAfter now done record)
    (fits : Forall₂ (Fits now) (marked [b] [record]) os) (changed : m₁.Changed (os.map .accept) m₂) :
    Sifts now m done [record] [b] os m₁ m₂ where
  length := rfl
  positions := by
    rintro (_ | i) x hx
    · obtain rfl : record = x := by simpa using hx
      simpa using admits
    · cases hx
  fits := fits
  changed := changed

theorem Sifts.cons {b : Bool} {mask : List Bool} {os' : List Order} {m₁ m₂ m₃ : Memory}
    (first : Sifts now m done [record] [b] os m₁ m₂) (rest : Sifts now m (done ++ [record]) records mask os' m₂ m₃) :
    Sifts now m done (record :: records) (b :: mask) (os ++ os') m₁ m₃ where
  length := by rw [List.length_cons, List.length_cons, rest.length]
  positions := by
    rintro (_ | i) x hx
    · simpa using first.positions 0 x (by simpa using hx)
    · simpa using rest.positions i x hx
  fits := by
    have split : marked (b :: mask) (record :: records) = marked [b] [record] ++ marked mask records := by
      cases b <;> rfl
    rw [split]
    exact List.rel_append first.fits rest.fits
  changed := by
    rw [List.map_append]
    exact first.changed.append rest.changed

/-- One record of an import, on what the records before it have left. -/
theorem Imported.step (quiet : DropsQuietly κ) (stands : s.StandsAt now) (h : Imported now m done s.store)
    (record : Except RejectedRecord Acceptance) :
    ∃ b os t, (∀ r, importRecord r record s = (.ok (if b then r.addImported else r.addError (recordId record)), t)) ∧
      t.StandsAt now ∧ Imported now m (done ++ [record]) t.store ∧
      Sifts now m done [record] [b] os s.store t.store := by
  by_cases admits : m.AdmitsAfter now done record
  · obtain ⟨⟨o, fits⟩, free⟩ := Memory.admits_iff.1 (h.admits_iff.2 admits)
    obtain ⟨t, run, stands', change⟩ := importRecord_fitting quiet stands fits (fits.id.symm ▸ free)
    exact ⟨true, [o], t, run, stands', h.stored admits fits change,
      .one (iff_of_true rfl admits) (.cons fits .nil) change.changed⟩
  · obtain ⟨t, run, stands', same⟩ := importRecord_refused stands (mt h.admits_iff.1 admits)
    exact ⟨false, [], t, run, stands', same ▸ h.skipped admits, .one (iff_of_false nofun admits) .nil (same ▸ .nil _)⟩

/-- The rest of an import, after some records. -/
theorem Imported.rest (quiet : DropsQuietly κ) (stands : s.StandsAt now) (h : Imported now m done s.store)
    (records : List (Except RejectedRecord Acceptance)) (r : ImportResult) :
    ∃ mask os t, records.foldlM importRecord r s = (.ok (r.told mask (records.map recordId)), t) ∧
      Sifts now m done records mask os s.store t.store := by
  induction records generalizing s done r with
  | nil => exact ⟨[], [], s, by rw [r.told_nil]; rfl, rfl, by simp, .nil, .nil _⟩
  | cons record records ih =>
    obtain ⟨b, os, t, run, stands', imported, first⟩ := h.step quiet stands record
    obtain ⟨mask, os', u, ran, rest⟩ := ih stands' imported (if b then r.addImported else r.addError (recordId record))
    refine ⟨b :: mask, os ++ os', u, ?_, first.cons rest⟩
    rw [List.foldlM_cons, bind_run, run]
    dsimp only
    rw [ran, ImportResult.told_cons]
    rfl

/-- Records that orders were made of are stored as these again, on every store that differs in times and event ids
alone. -/
theorem importRecords_again (quiet : DropsQuietly κ) (stands : s.StandsAt now) (fits : Forall₂ (Fits now) records os)
    (changed : m.Changed (os.map .accept) m') (alike : m.blurred = s.store.blurred) (r : ImportResult) :
    ∃ t, records.foldlM importRecord r s = (.ok ⟨r.imported + records.length, r.errors⟩, t) ∧
      t.store.blurred = m'.blurred := by
  induction fits generalizing m s r with
  | nil =>
    cases changed
    exact ⟨s, rfl, alike.symm⟩
  | cons head _ ih =>
    cases changed with
    | cons first rest =>
      have free := Memory.orders_eq_of_blurred alike ▸ first.free
      obtain ⟨t, run, stands', change⟩ := importRecord_fitting quiet stands head free
      obtain ⟨u, ran, same⟩ := ih stands' rest (first.blurred alike change) r.addImported
      refine ⟨u, ?_, same⟩
      rw [List.foldlM_cons, bind_run, run]
      dsimp only
      rw [ran]
      simp [ImportResult.addImported, Nat.add_comm, Nat.add_left_comm]

/-- An import with its positions split: what is marked went through, each record by itself. -/
structure Independent (now : Instant) (records : List (Except RejectedRecord Acceptance)) (mask : List Bool)
    (r : ImportResult) (s s' : Site Memory κ) : Prop where
  length : mask.length = records.length
  counted : r.imported + r.errors.length = records.length
  imported : r.imported = (marked mask records).length
  /-- the count needs no more than its bits, if the count of the records does not -/
  fits : records.length < bitLimit countBits → r.imported < bitLimit countBits
  errors : r.errors = marked (mask.map (!·)) (records.map recordId)
  once : ((marked mask records).map recordId).Nodup
  /-- which records go through, told from the store before the import -/
  positions : ∀ i record, records[i]? = some record →
    (mask[i]? = some true ↔ s.store.AdmitsAfter now (records.take i) record)
  /-- what is stored are parcels under their ids -/
  stored : ∃ os : List Order,
    os.map (·.id) = (marked mask records).map recordId ∧ s.store.Changed (os.map .accept) s'.store
  /-- the others leave no trace -/
  alone : ∀ s₀ : Site Memory κ, s₀.store = s.store → s₀.StandsAt now →
    ∃ s₁, importAll (marked mask records) s₀ = (.ok ⟨r.imported, []⟩, s₁) ∧ s₁.store.blurred = s'.store.blurred

/-- **Records are imported independently.** For every store and all records, while the clock stands still and no faults
are set: an import answers, every record goes through or its id is told, in their order, no id goes through twice, and
what is left is what the records that went through leave as an import of their own. The count of those fits its bits if
the count of all records does. -/
theorem import_independent (quiet : DropsQuietly κ) (stands : s.StandsAt now)
    (records : List (Except RejectedRecord Acceptance)) :
    ∃ r mask s', importAll records s = (.ok r, s') ∧ Independent now records mask r s s' := by
  obtain ⟨mask, os, s', run, sifts⟩ := (Imported.start now s.store).rest quiet stands records .none
  have ids : os.map (·.id) = (marked mask records).map recordId := ids_of_fits sifts.fits
  rw [ImportResult.none_told] at run
  exact ⟨_, mask, s', run, {
    length := sifts.length
    counted := by rw [count_add_marked (by simpa using sifts.length), List.length_map]
    fits := lt_of_le_of_lt (sifts.length ▸ List.count_le_length)
    imported := (length_marked sifts.length).symm
    errors := rfl
    once := ids ▸ nodup_of_accepted sifts.changed
    positions := by simpa using sifts.positions
    stored := ⟨os, ids, sifts.changed⟩
    alone := fun s₀ same stands₀ => by
      obtain ⟨s₁, ran, alike⟩ :=
        importRecords_again quiet stands₀ sifts.fits sifts.changed (congrArg Memory.blurred same.symm) .none
      refine ⟨s₁, ?_, alike⟩
      rw [importAll, ran, length_marked sifts.length, ImportResult.none, Nat.zero_add] }⟩

/-- parcel 1 of client 7 on the shelf, and a clock that stands still -/
def stoppedClock : Site Memory TimedCache where
  clock := ⟨fun _ => ⟨0, 0⟩, 0⟩
  eventIds := 0
  store := Memory.empty.seed ⟨1, 7, .expects, ⟨60, 0⟩, .box, 1, .ofNat 20⟩
  cache := .empty
  cacheTtl := 60
  metrics := .empty
  faults := []

/-- a parcel for id 2 that is too heavy, a record under id 2 that was not read, the parcel, once more, one for the id
that is taken, and another -/
def mixedRecords : List (Except RejectedRecord Acceptance) :=
  [.ok ⟨2, 8, 40, .ofNat 5, ⟨60, 0⟩, "box"⟩, .error ⟨2, .invalidInput "price"⟩, .ok ⟨2, 8, 4, .ofNat 5, ⟨60, 0⟩, "box"⟩,
    .ok ⟨2, 9, 1, .ofNat 6, ⟨60, 0⟩, "none"⟩, .ok ⟨1, 7, 1, .ofNat 7, ⟨60, 0⟩, "bag"⟩,
    .ok ⟨3, 7, 1, .ofNat 8, ⟨60, 0⟩, "tape"⟩]

/-- Records 3 and 6 go through: those that failed before record 3 under its id have left the id free. -/
theorem import_independent_of_mixed_records :
    DropsQuietly TimedCache ∧ stoppedClock.StandsAt ⟨0, 0⟩ ∧
      ∃ mask s', importAll mixedRecords stoppedClock = (.ok ⟨2, [2, 2, 2, 1]⟩, s') ∧
        Independent ⟨0, 0⟩ mixedRecords mask ⟨2, [2, 2, 2, 1]⟩ stoppedClock s' := by
  have stands : stoppedClock.StandsAt ⟨0, 0⟩ := ⟨rfl, fun _ _ => rfl⟩
  have answer : (importAll mixedRecords stoppedClock).1 = .ok ⟨2, [2, 2, 2, 1]⟩ := by decide +kernel
  obtain ⟨r, mask, s', run, independent⟩ := import_independent caches_dropQuietly.1 stands mixedRecords
  rw [run] at answer
  cases answer
  exact ⟨caches_dropQuietly.1, stands, mask, s', run, independent⟩

end PickupPoint
