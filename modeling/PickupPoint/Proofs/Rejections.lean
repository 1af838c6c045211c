/-
The ids that the failed records of an import are reported under.

An import tells one id for every record that did not go through, in their order (`importRecords_end`). The id is that of
the parcel if the record reads as one and its price reads too, and else it is looked up under its name. An array has no
names. So a row whose price does not read is told under 0 (`odd_row_reported_as_zero`), where an object with the same
fields is told under its id, and so is the same row if it fails for anything else (`named`).
-/
import PickupPoint.Proofs.Imports
import PickupPoint.Proofs.Refusals

namespace PickupPoint

open Act

/-! ## Records one after the other -/

section Records

variable {σ κ : Type} [OrderStore σ] [HistoryCache κ]

/-- The record is accepted on a site. -/
def GoesThrough (s : Site σ κ) (record : Except RejectedRecord Acceptance) : Prop :=
  ∃ a o, record = .ok a ∧ (accept a s).1 = .ok o

/-- a panic that a fault or the cache has in store -/
def Loud (s : Site σ κ) (text : String) : Prop :=
  .panic text ∈ Fault.effects s.faults ∨ HistoryCache.Panics κ text

/-- One record goes through or its id is told, whatever was told before it, unless its handler breaks off. -/
theorem importRecord_ends (record : Except RejectedRecord Acceptance) (s : Site σ κ) :
    ∃ s', Fault.effects s'.faults = Fault.effects s.faults ∧
      ((∃ b : Bool, (b = true ↔ GoesThrough s record) ∧ ∀ r, importRecord r record s =
          (.ok (if b then r.addImported else r.addError (recordId record)), s')) ∨
        ∃ text, Loud s text ∧ ∀ r, importRecord r record s = (.error (.panic text), s')) := by
  unfold importRecord GoesThrough
  cases record with
  | error rejected =>
    exact ⟨{ s with metrics := s.metrics.countFailure rejected.cause.code }, rfl, .inl ⟨false, by simp, fun r => rfl⟩⟩
  | ok a =>
    have law : Reckoned s (halt? (accept a s).1) (accept a s).2 := (accept_reckoned a (s := s)).law
    refine ⟨(accept a s).2, law.effects, ?_⟩
    dsimp only
    rcases run : accept a s with ⟨(e | text) | o, s'⟩ <;> rw [run] at law
    · refine .inl ⟨false, by simp [run], fun r => ?_⟩
      rw [bind_run, attempt_run, run]
      rfl
    · refine .inr ⟨text, law.source text rfl, fun r => ?_⟩
      rw [bind_run, attempt_run, run]
    · refine .inl ⟨true, iff_of_true rfl ⟨a, o, rfl, by rw [run]⟩, fun r => ?_⟩
      rw [bind_run, attempt_run, run]
      rfl

/-- The site that records leave does not depend on what is told of those before them. -/
theorem importRecords_site (records : List (Except RejectedRecord Acceptance)) (r r' : ImportResult) (s : Site σ κ) :
    (records.foldlM importRecord r s).2 = (records.foldlM importRecord r' s).2 := by
  induction records generalizing r r' s with
  | nil => rfl
  | cons record records ih =>
    rw [List.foldlM_cons, List.foldlM_cons, bind_run, bind_run]
    obtain ⟨s', -, ⟨b, -, ends⟩ | ⟨text, -, ends⟩⟩ := importRecord_ends record s <;> rw [ends, ends]
    exact ih _ _ _

/-- Of records that are tried one after the other, the marked ones go through. -/
structure Tried (records : List (Except RejectedRecord Acceptance)) (mask : List Bool) (s : Site σ κ) : Prop where
  length : mask.length = records.length
  /-- each on what the records before it left -/
  positions : ∀ i record, records[i]? = some record →
    (mask[i]? = some true ↔ GoesThrough (importAll (records.take i) s).2 record)

theorem Tried.cons {record : Except RejectedRecord Acceptance} {records : List (Except RejectedRecord Acceptance)}
    {b : Bool} {mask : List Bool} {s s' : Site σ κ} {r : ImportResult} (run : importRecord .none record s = (.ok r, s'))
    (first : b = true ↔ GoesThrough s record) (rest : Tried records mask s') : Tried (record :: records) (b :: mask) s := by
  refine ⟨by simp [rest.length], ?_⟩
  rintro (_ | i) x hx
  · obtain rfl : record = x := by simpa using hx
    rw [List.getElem?_cons_zero, Option.some.injEq, first]
    rfl
  · have after : (importAll (record :: records.take i) s).2 = (importAll (records.take i) s').2 := by
      rw [importAll, List.foldlM_cons, bind_run, run]
      exact importRecords_site ..
    rw [List.take_succ_cons, after]
    simpa using rest.positions i x hx

/-- Records are told of, or their handler breaks off. -/
theorem importRecords_end (records : List (Except RejectedRecord Acceptance)) (s : Site σ κ) :
    (∃ text s', Loud s text ∧ ∀ r, records.foldlM importRecord r s = (.error (.panic text), s')) ∨
      ∃ mask s', Tried records mask s ∧
        ∀ r, records.foldlM importRecord r s = (.ok (r.told mask (records.map recordId)), s') := by
  induction records generalizing s with
  | nil => exact .inr ⟨[], s, ⟨rfl, by simp⟩, fun r => by rw [r.told_nil]; rfl⟩
  | cons record records ih =>
    obtain ⟨t, same, one⟩ := importRecord_ends record s
    have loud : ∀ text, Loud t text → Loud s text := fun text source => by rwa [Loud, ← same]
    simp only [List.foldlM_cons, bind_run]
    rcases one with ⟨b, goes, run⟩ | ⟨text, source, run⟩
    · simp only [run]
      rcases ih t with ⟨text, s', source, breaks⟩ | ⟨mask, s', told, ends⟩
      · exact .inl ⟨text, s', loud text source, fun r => breaks _⟩
      · refine .inr ⟨b :: mask, s', told.cons (run .none) goes, fun r => ?_⟩
        rw [ends, ImportResult.told_cons]
        rfl
    · exact .inl ⟨text, t, source, fun r => by rw [run]⟩

end Records

namespace Http

open Json

/-! ## Ids of records -/

/-- the parcel that a record reads as -/
def parcel? (record : Json) : Option ParcelBody := (members? ParcelBody.names record).bind ParcelBody.ofMembers?

/-- the id that a record says, as its field or as the first item of a row -/
def saidId? (record : Json) : Option Nat := do (← (← members? ParcelBody.names record).head?.join).natural?

/-- the id that a record is told under if it does not go through -/
def toldId (record : Json) : Nat := PickupPoint.recordId (readRecord record)

def IsRow (record : Json) : Prop := ∃ items, record = .array items

theorem said_of_members {members : List (Option Json)} {p : ParcelBody} (read : ParcelBody.ofMembers? members = some p) :
    members.head?.join.bind natural? = some p.orderId := by
  unfold ParcelBody.ofMembers? at read
  split at read
  · simp only [Option.bind_eq_bind, Option.bind_eq_some_iff] at read
    obtain ⟨v, rfl, id, number, _, -, _, -, _, -, _, -, _, -, _, -, _, -, _, -, made⟩ := read
    have same : p.orderId = id := by
      split at made <;> obtain ⟨_, -, ⟨⟩⟩ := Option.bind_eq_some_iff.1 made <;> rfl
    rw [same]
    exact number
  · cases read

/-- Where a record reads as a parcel, it says the id of the parcel. -/
theorem said_of_parcel {record : Json} {p : ParcelBody} (read : parcel? record = some p) :
    saidId? record = some p.orderId := by
  obtain ⟨members, found, read⟩ := Option.bind_eq_some_iff.1 read
  rw [saidId?, found]
  exact said_of_members read

/-- A record that is no row is looked up under its names. -/
theorem recordId_eq_said {record : Json} (named : ¬ IsRow record) : recordId record = (saidId? record).getD 0 := by
  cases record with
  | array items => exact absurd ⟨items, rfl⟩ named
  | object fields => rfl
  | null | bool | integer | float | text => rfl

theorem recordId_row {record : Json} (row : IsRow record) : recordId record = 0 := by
  obtain ⟨items, rfl⟩ := row
  rfl

theorem toldId_parcel {record : Json} {p : ParcelBody} (read : parcel? record = some p) :
    toldId record = match Decimal.parse p.price with
      | .ok _ => p.orderId
      | .error _ => recordId record := by
  rw [toldId, readRecord, ← parcel?, read]
  dsimp only [ParcelBody.acceptance]
  rcases Decimal.parse p.price with fault | price <;> rfl

theorem toldId_unread {record : Json} (unread : parcel? record = none) : toldId record = recordId record := by
  rw [toldId, readRecord, ← parcel?, unread]
  rfl

/-- Under which id a record is told. -/
structure Named (record : Json) : Prop where
  /-- under the id of its parcel, unless it is a row whose price does not read -/
  parcel : ∀ p, parcel? record = some p →
    (toldId record = p.orderId ↔ p.orderId = 0 ∨ ¬ IsRow record ∨ ∃ price, Decimal.parse p.price = .ok price)
  /-- what is no row under the id that it says, and under 0 if it says none -/
  field : ¬ IsRow record → toldId record = (saidId? record).getD 0
  /-- a row that is no parcel under 0 -/
  row : IsRow record → parcel? record = none → toldId record = 0

theorem named (record : Json) : Named record where
  parcel p read := by
    rw [toldId_parcel read]
    rcases Decimal.parse p.price with fault | price
    · by_cases row : IsRow record
      · simp [recordId_row row, row, @eq_comm _ 0]
      · simp [recordId_eq_said row, said_of_parcel read, row]
    · simp
  field named := by
    rcases read : parcel? record with _ | p
    · rw [toldId_unread read, recordId_eq_said named]
    · rw [toldId_parcel read, recordId_eq_said named, said_of_parcel read]
      split <;> rfl
  row row unread := by rw [toldId_unread unread, recordId_row row]

/-! ## Imports by request -/

/-- the records in the body of a request that imports them -/
def Request.records? (r : Request) : Option (List Json) :=
  if r.route? = some .importOrders ∧ (r.contentType.bind MediaType.parse?).any MediaType.isJson ∧
      r.body.length ≤ bodyLimit then
    (Tree.ofRunes? (Text.decode r.body)).bind (decodeRecords maxLevels)
  else none

theorem ofRequest_records {r : Request} {records : List Json} (h : r.records? = some records) :
    Demand.ofRequest r = .call 200 (.importAll (records.map readRecord)) := by
  unfold Request.records? at h
  split_ifs at h with reads
  obtain ⟨route, json, small⟩ := reads
  rw [ofRequest_route, route]
  show Demand.ofBody r decodeRecords _ = _
  rw [ofBody_read json small, h]
  rfl

section Answers

variable {σ κ : Type} [OrderStore σ] [HistoryCache κ]

/-- **Failed records are told by their ids, rows without a price by 0.** Whatever the store, the cache, the faults and
the records in the body of an import: unless a panic breaks it off, it is answered with one id for every record that did
not go through, in their order. A record that reads as a parcel is told under the id of the parcel if and only if that
is 0, the record is no row, or its price reads. All else is told under the id that it says, or under 0 if it says none
or is a row. -/
theorem failed_records_told {r : Request} {records : List Json} (asked : r.records? = some records) (s : Site σ κ) :
    (r.BreaksOff s → ∃ text, Loud s text) ∧
      (¬ r.BreaksOff s → ∃ mask s', Tried (records.map readRecord) mask s ∧ handle r s =
        (.json 200 (replyBody (.imported ⟨mask.count true, marked (mask.map (!·)) (records.map toldId)⟩)), s')) ∧
      ∀ record ∈ records, Named record := by
  have demand := ofRequest_records asked
  have perform : (Call.importAll (records.map readRecord)).perform s =
      ((importAll (records.map readRecord) s).1.map .imported, (importAll (records.map readRecord) s).2) := map_run ..
  rw [breaksOff_iff demand, perform, ← and_assoc]
  refine ⟨?_, fun record _ => named record⟩
  rcases importRecords_end (records.map readRecord) s with ⟨text, s', loud, breaks⟩ | ⟨mask, s', told, ends⟩
  · rw [importAll, breaks]
    exact ⟨fun _ => ⟨text, loud⟩, fun stays => absurd ⟨text, rfl⟩ stays⟩
  · rw [importAll, ends]
    refine ⟨by rintro ⟨text, ⟨⟩⟩, fun _ => ⟨mask, s', told, ?_⟩⟩
    have ids : (records.map readRecord).map PickupPoint.recordId = records.map toldId := List.map_map
    rw [handle, demand, answer, perform, importAll, ends, ids, ImportResult.none_told]
    rfl

/-- the ids that an answer tells as errors -/
def Response.errorIds? : Response → Option (List Nat)
  | .json _ body => (body.get? "errors").bind naturals?
  | .text .. | .plain _ => none

theorem not_breaksOff {r : Request} {s : Site σ κ} {ids : List Nat} (told : (handle r s).1.errorIds? = some ids) :
    ¬ r.BreaksOff s := by
  rintro ⟨status, c, text, demand, panics⟩
  rcases run : c.perform s with ⟨result, s'⟩
  rw [run] at panics
  dsimp only at panics
  rw [handle, demand, answer, run, panics] at told
  cases told

end Answers

/-- an import in JSON -/
def importOf (text : String) : Request := ⟨"POST", ⟨"/orders/import", ""⟩, some "application/json", text.toUTF8.toList⟩

/-- a row for order 5 at a price that is no number, one for order 6 that comes too late, an object for order 7 at a price
that is no number, a text, and a row for order 9 -/
def oddRecords : Request := importOf ("\x7b\"orders\":[[5,7,1,\"abc\",\"2999-01-01T00:00:00Z\"]," ++
  "[6,7,1,\"10\",\"1969-01-01T00:00:00Z\"],\x7b\"order_id\":7,\"user_id\":7,\"weight\":1," ++
  "\"price\":\"abc\",\"expires_at\":\"2999-01-01T00:00:00Z\"\x7d,\"8\",[9,7,1,\"10\",\"2999-01-01T00:00:00Z\"]]\x7d")

/-- Of the rows that fail, the one that is late is told under its id. -/
theorem failed_records_told_of_odd_records :
    ∃ records mask s', oddRecords.records? = some records ∧ ¬ oddRecords.BreaksOff (opening TimedCache.empty) ∧
      Tried (records.map readRecord) mask (opening TimedCache.empty) ∧
      handle oddRecords (opening TimedCache.empty) =
        (.json 200 (replyBody (.imported ⟨mask.count true, marked (mask.map (!·)) (records.map toldId)⟩)), s') ∧
      (handle oddRecords (opening TimedCache.empty)).1.errorIds? = some [0, 6, 7, 0] := by
  obtain ⟨read, told⟩ : oddRecords.records?.isSome = true ∧
      (handle oddRecords (opening TimedCache.empty)).1.errorIds? = some [0, 6, 7, 0] := by decide +kernel
  obtain ⟨records, asked⟩ := Option.isSome_iff_exists.1 read
  have stays := not_breaksOff told
  obtain ⟨-, answered, -⟩ := failed_records_told asked (opening TimedCache.empty)
  obtain ⟨mask, s', positions, handled⟩ := answered stays
  exact ⟨records, mask, s', asked, stays, positions, handled, told⟩

/-- a row for order 5 alone -/
def oddRow : Request :=
  importOf "\x7b\"orders\": [[5, 7, 1.0, \"abc\", \"2999-01-01T00:00:00Z\", \"box\"]]\x7d"

/-- It reads as a parcel for order 5, which is not stored, and is told under 0. -/
theorem odd_row_reported_as_zero :
    oddRow.records?.map (·.map fun record => (parcel? record).map (·.orderId)) = some [some 5] ∧
      (handle oddRow (opening TimedCache.empty)).2.store.orders.find? 5 = none ∧
      (handle oddRow (opening TimedCache.empty)).1.errorIds? = some [0] := by
  decide +kernel

end Http

end PickupPoint
