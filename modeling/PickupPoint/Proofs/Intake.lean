/-
A parcel comes in the same by itself and in an import.

A request that hands over a parcel has it as its body, and one that imports has a list of such bodies in its own. A body
about which nothing is odd reads as the same parcel both ways (`parcel_alike`), so both requests judge it alike, and a
parcel that goes through makes the same of the store (`comes_in_alike`). A string that is no Unicode text is refused both
ways (`decodeParcel_damaged`, `decodeRecords_damaged`), but in a field that nobody asks for it tells them apart: one skips
it, and the other has no value for it (`skipped_by_one_alone`).
-/
import PickupPoint.Proofs.Enclosure
import PickupPoint.Proofs.Records
import PickupPoint.Proofs.Rejections

namespace PickupPoint

open Act

/-! ## One record -/

theorem importAll_one {κ : Type} [HistoryCache κ] (record : Except RejectedRecord Acceptance) (s : Site Memory κ) :
    importAll [record] s = importRecord .none record s := by
  rw [importAll, List.foldlM_cons]
  exact congrFun (bind_pure _) s

/-- Two sites without faults at the same time, whose stores differ in times and event ids alone. -/
structure Site.StandsBeside {κ κ' : Type} (s : Site Memory κ) (s' : Site Memory κ') : Prop where
  faultless : s.faults = []
  faultless' : s'.faults = []
  time : s.clock.current = s'.clock.current
  stores : s.store.blurred = s'.store.blurred

namespace Http

open Json Text

/-! ## The two requests -/

/-- a request that hands over a parcel, with its text -/
def parcelIn (text : List UInt8) : Request := ⟨"POST", ⟨"/orders", ""⟩, some "application/json", text⟩

/-- a request that imports a list with that text as its only record -/
def importIn (text : List UInt8) : Request :=
  ⟨"POST", ⟨"/orders/import", ""⟩, some "application/json",
    ascii (openingChars "orders") ++ text ++ ascii closingChars⟩

theorem route_parcelIn (text : List UInt8) : (parcelIn text).route? = some .acceptOrder := by
  have route : (Target.segments? ⟨"/orders", ""⟩).bind (Route.find? "POST") = some .acceptOrder := by decide +kernel
  exact route

theorem route_importIn (text : List UInt8) : (importIn text).route? = some .importOrders := by
  have route : (Target.segments? ⟨"/orders/import", ""⟩).bind (Route.find? "POST") = some .importOrders := by
    decide +kernel
  exact route

theorem isJson_plain : (MediaType.parse? "application/json").any MediaType.isJson = true := by decide +kernel

/-- the body of an import with that tree as its only record -/
def listing (t : Tree) : Tree := .object [(runes "orders", .array [t])]

section Demands

variable {text : List UInt8} {t : Tree}

theorem ofRequest_importIn (reads : Tree.ofRunes? (decode text) = some t)
    (small : (importIn text).body.length ≤ bodyLimit) :
    Demand.ofRequest (importIn text) = (decodeRecords maxLevels (listing t)).elim .badRequest
      fun records => .call 200 (.importAll (records.map readRecord)) := by
  have around : (openingChars "orders").all (·.toNat < 0x80) ∧ closingChars.all (·.toNat < 0x80) := by decide
  have body : decode (importIn text).body = enclosed "orders" (decode text) :=
    decode_between (by simpa using around.1) (by simpa using around.2) text
  have json : ((importIn text).contentType.bind MediaType.parse?).any MediaType.isJson := isJson_plain
  rw [ofRequest_route, route_importIn]
  show Demand.ofBody (importIn text) decodeRecords _ = _
  rw [ofBody_read json small, body, ofRunes?_enclosed "orders" reads]
  rfl

theorem ofRequest_parcelIn (reads : Tree.ofRunes? (decode text) = some t)
    (small : (importIn text).body.length ≤ bodyLimit) :
    Demand.ofRequest (parcelIn text) = (decodeParcel maxLevels t).elim .badRequest .ofParcel := by
  have shorter : text.length ≤ (importIn text).body.length := by
    simp only [importIn, List.length_append]
    omega
  have json : ((parcelIn text).contentType.bind MediaType.parse?).any MediaType.isJson := isJson_plain
  have read : (Tree.ofRunes? (decode (parcelIn text).body)).bind (decodeParcel maxLevels) = decodeParcel maxLevels t :=
    congrArg (·.bind (decodeParcel maxLevels)) reads
  rw [ofRequest_route, route_parcelIn]
  show Demand.ofBody (parcelIn text) decodeParcel .ofParcel = _
  rw [ofBody_read json (shorter.trans small), read]

end Demands

/-! ## Both at once -/

section Bodies

variable {t : Tree} {levels : Nat}

/-- In an import the value of the text is the only record. -/
theorem decodeRecords_listing {v : Json} (kept : t.Keeps levels v) (shallow : levels + 2 ≤ maxLevels) :
    decodeRecords maxLevels (listing t) = some [v] := by
  have item : ∀ u ∈ [t], u.Keeps levels v := by simpa using kept
  have list : ∀ f ∈ [(runes "orders", Tree.array [t])], f.2.Keeps (levels + 1) (.array [v]) := by
    simpa using keeps_array item
  have members : (listing t).keptMembers? ["orders"] (126 + 1) = _ :=
    members_object list (by simp [runes]) (by simp) (Nat.le_of_succ_le_succ shallow) ["orders"]
  show decodeRecords (126 + 1) _ = _
  rw [decodeRecords, members]
  rfl

/-- A text about which nothing is odd reads as the same parcel by itself and as the value that it has in a list. -/
theorem parcel_alike (regular : t.Regular (none ∉ ·) levels) (shallow : levels + 2 ≤ maxLevels) :
    ∃ v, t.Keeps levels v ∧ decodeParcel maxLevels t = parcel? v := by
  obtain ⟨v, kept, members⟩ := regular.record (Nat.le_of_add_right_le shallow)
  refine ⟨v, kept, ?_⟩
  rw [decodeParcel, members, parcel?]

variable (regular : t.Regular (fun _ => True) levels) (damaged : ¬ t.Regular (none ∉ ·) levels)
include regular damaged

/-- A string that is none, where it is read, leaves no parcel. -/
theorem decodeParcel_damaged (others : t.OthersIntact ParcelBody.names) : decodeParcel maxLevels t = none := by
  rcases read : decodeParcel maxLevels t with _ | p
  · rfl
  · obtain ⟨ms, members, -⟩ := Option.bind_eq_some_iff.1 read
    exact absurd (regular.intact_of_record others members) damaged

/-- A string that is none, wherever it is, leaves no list of records. -/
theorem decodeRecords_damaged : decodeRecords maxLevels (listing t) = none := by
  rcases read : decodeRecords maxLevels (listing t) with _ | records
  · rfl
  · obtain ⟨ms, members, -⟩ := Option.bind_eq_some_iff.1 read
    have list : (listing t).Regular (fun _ => True) (levels + 1 + 1) := by
      refine .object ?_ (fun _ _ => trivial) (List.nodup_singleton _)
      exact List.forall_mem_singleton.2 (.array (List.forall_mem_singleton.2 regular))
    have named : (listing t).OthersIntact ["orders"] :=
      List.forall_mem_singleton.2 fun other => absurd List.mem_cons_self other
    obtain - | - | - | - | - | ⟨each, -, -⟩ := list.intact_of_record named members
    obtain - | - | - | - | items | - := List.forall_mem_singleton.1 each
    exact absurd (List.forall_mem_singleton.1 items) damaged

end Bodies

/-- A text hands over the same record by itself and in an import. -/
structure HandsOver (text : List UInt8) (record : Json) : Prop where
  alone : Demand.ofRequest (parcelIn text) = (parcel? record).elim .badRequest .ofParcel
  listed : Demand.ofRequest (importIn text) = .call 200 (.importAll [readRecord record])

/-- A text hands over the same record both ways, or none either way. -/
theorem handsOver {text : List UInt8} {t : Tree} {levels : Nat} (reads : Tree.ofRunes? (decode text) = some t)
    (regular : t.Regular (fun _ => True) levels) (others : t.OthersIntact ParcelBody.names)
    (shallow : levels + 2 ≤ maxLevels) (small : (importIn text).body.length ≤ bodyLimit) :
    (∃ record, HandsOver text record) ∨
      (Demand.ofRequest (parcelIn text) = .badRequest ∧ Demand.ofRequest (importIn text) = .badRequest) := by
  rw [ofRequest_parcelIn reads small, ofRequest_importIn reads small]
  by_cases intact : t.Regular (none ∉ ·) levels
  · obtain ⟨v, kept, parcel⟩ := parcel_alike intact shallow
    refine .inl ⟨v, ?_, ?_⟩
    · rw [ofRequest_parcelIn reads small, parcel]
    · rw [ofRequest_importIn reads small, decodeRecords_listing kept shallow]
      rfl
  · rw [decodeParcel_damaged regular intact others, decodeRecords_damaged regular intact]
    exact .inr ⟨rfl, rfl⟩

section Answers

variable {κ κ' : Type} [HistoryCache κ] [HistoryCache κ']

/-- A record is a parcel for both requests, or neither lets it through to the store. -/
theorem record_cases (record : Json) :
    (∃ a, readRecord record = .ok a ∧ (parcel? record).elim .badRequest Demand.ofParcel = .call 201 (.accept a)) ∨
      ∃ rejected, readRecord record = .error rejected ∧ ∀ s : Site Memory κ,
        (answer ((parcel? record).elim .badRequest .ofParcel) s).1.status ≠ 201 ∧
          (answer ((parcel? record).elim .badRequest .ofParcel) s).2 = s := by
  rw [readRecord, ← parcel?]
  rcases parcel? record with _ | p
  · exact .inr ⟨_, rfl, fun s => ⟨show 400 ≠ 201 by decide, rfl⟩⟩
  dsimp only [Option.elim, Demand.ofParcel]
  rcases p.acceptance with e | a
  · refine .inr ⟨_, rfl, fun s => ⟨fun created => ?_, rfl⟩⟩
    exact absurd (created ▸ status_ofError e) (by decide)
  · exact .inl ⟨a, rfl, rfl⟩

theorem handle_importIn {text : List UInt8} {record : Json} (both : HandsOver text record) {s t : Site Memory κ}
    {r : ImportResult} (run : importRecord .none (readRecord record) s = (.ok r, t)) :
    handle (importIn text) s = (.json 200 (replyBody (.imported r)), t) := by
  have all : importAll [readRecord record] s = (.ok r, t) := by rw [importAll_one, run]
  have performed : (Call.importAll [readRecord record]).perform s = _ := map_run ..
  rw [handle, both.listed, answer, performed, all]
  rfl

/-- the answer to an import of one record that went through -/
def importedOne : Response := .json 200 (replyBody (.imported ⟨1, []⟩))

theorem not_importedOne {r : ImportResult} (h : r.imported = 0) : .json 200 (replyBody (.imported r)) ≠ importedOne := by
  simp [importedOne, replyBody, h]

/-- **A parcel comes in the same by itself and in an import.** Take two stores in memory that are equal but for times and
event ids, at the same time, and a JSON text with numbers in range, no repeated keys and fewer than a hundred levels of
containers, which is not too long, with strings that are Unicode text in the fields that a parcel does not have. As the
body of a request that hands over a parcel it is answered 201 if and only if an import with it as the only record is
answered one imported and no errors, and after both requests the stores are equal again but for times and event ids. -/
theorem comes_in_alike (quiet : DropsQuietly κ) (quiet' : DropsQuietly κ') {s : Site Memory κ} {s' : Site Memory κ'}
    (beside : s.StandsBeside s') {text : List UInt8} {t : Tree} (reads : Tree.ofRunes? (decode text) = some t)
    {levels : Nat} (regular : t.Regular (fun _ => True) levels) (others : t.OthersIntact ParcelBody.names)
    (shallow : levels < 100) (small : (importIn text).body.length ≤ bodyLimit) :
    ((handle (parcelIn text) s).1.status = 201 ↔ (handle (importIn text) s').1 = importedOne) ∧
      (handle (parcelIn text) s).2.store.blurred = (handle (importIn text) s').2.store.blurred := by
  obtain ⟨record, both⟩ | ⟨alone, listed⟩ := handsOver reads regular others (by rw [maxLevels]; omega) small
  case inr =>
    have unlike : Response.plain 400 ≠ importedOne := by simp [importedOne]
    rw [handle, handle, alone, listed]
    exact ⟨iff_of_false (show 400 ≠ 201 by decide) unlike, beside.stores⟩
  have alone : handle (parcelIn text) s = answer ((parcel? record).elim .badRequest .ofParcel) s :=
    congrArg (answer · s) both.alone
  rw [alone]
  rcases record_cases (κ := κ) record with ⟨a, read, demand⟩ | ⟨rejected, read, turned⟩
  · have judge : a.judged s'.clock.current (s'.store.orders.find? a.orderId).isSome =
        a.judged s.clock.current (s.store.orders.find? a.orderId).isSome := by
      rw [beside.time, Memory.orders_eq_of_blurred beside.stores]
    have performed : (Call.accept a).perform s = ((accept a s).1.map .order, (accept a s).2) := map_run ..
    rw [demand, answer, performed]
    rcases judged : a.judged s.clock.current (s.store.orders.find? a.orderId).isSome with e | o <;> rw [judged] at judge
    · have told := importRecord_told (accept_refused beside.faultless' judge) .none
      rw [accept_refused beside.faultless judged, handle_importIn both (read ▸ told)]
      refine ⟨iff_of_false (fun created => ?_) (not_importedOne rfl), beside.stores⟩
      exact absurd (created ▸ status_ofError e) (by decide)
    · obtain ⟨u, accepted, -, -, -, change⟩ := accept_passed beside.faultless quiet judged
      obtain ⟨u', accepted', -, -, -, change'⟩ := accept_passed beside.faultless' quiet' judge
      have told := importRecord_accepted accepted' .none
      rw [accepted, handle_importIn both (read ▸ told)]
      exact ⟨iff_of_true rfl rfl, change.blurred beside.stores change'⟩
  · obtain ⟨unlike, same⟩ := turned s
    have told := importRecord_unread rejected .none s'
    rw [handle_importIn both (read ▸ told), same]
    exact ⟨iff_of_false unlike (not_importedOne rfl), beside.stores⟩

end Answers

/-- a parcel with a note, which nobody asks for -/
def notedText (note : String) : List UInt8 :=
  ("\x7b\"order_id\":1,\"user_id\":7,\"weight\":1,\"price\":\"10\",\"expires_at\":\"2999-01-01T00:00:00Z\"," ++
    "\"package\":\"none\",\"note\":\"" ++ note ++ "\"\x7d").toUTF8.toList

def notedTree (note : List Rune) : Tree := .object [
  (runes "order_id", .numeral (numeral 1)),
  (runes "user_id", .numeral (numeral 7)),
  (runes "weight", .numeral (numeral 1)),
  (runes "price", .text (runes "10")),
  (runes "expires_at", .text (runes "2999-01-01T00:00:00Z")),
  (runes "package", .text (runes "none")),
  (runes "note", .text note)]

theorem regular_notedTree {asked : List Rune → Prop} (strings : ∀ s, asked (runes s)) {note : List Rune}
    (string : asked note) : (notedTree note).Regular asked 1 := by
  have number : ∀ n : Nat, n < 10 → Tree.Regular asked 0 (.numeral (numeral n)) := fun n small =>
    .numeral ((value?_numeral n).trans (if_pos ⟨by omega, by rw [maxNatural_eq]; omega⟩))
  have distinct : (["order_id", "user_id", "weight", "price", "expires_at", "package", "note"].map runes).Nodup := by
    decide
  refine .object ?_ ?_ distinct
  · simp only [List.forall_mem_cons]
    exact ⟨number 1 (by decide), number 7 (by decide), number 1 (by decide), .text (strings _), .text (strings _),
      .text (strings _), .text string, nofun⟩
  · simp only [List.forall_mem_cons]
    exact ⟨strings _, strings _, strings _, strings _, strings _, strings _, strings _, nofun⟩

theorem reads_notedText {note : String} {rs : List Rune}
    (tokens : Token.ofRunes? (decode (notedText note)) = some (notedTree rs).tokens) :
    Tree.ofRunes? (decode (notedText note)) = some (notedTree rs) := by
  rw [Tree.ofRunes?, tokens, Option.bind_some, Tree.ofTokens?_tokens]

/-- It is taken in both ways, whatever is done with its history. -/
theorem comes_in_alike_with_note :
    DropsQuietly TimedCache ∧ DropsQuietly CacheServer ∧
      (opening TimedCache.empty).StandsBeside (opening CacheServer.empty) ∧
      Tree.ofRunes? (decode (notedText "fragile")) = some (notedTree (runes "fragile")) ∧
      (notedTree (runes "fragile")).Regular (fun _ => True) 1 ∧
      (notedTree (runes "fragile")).OthersIntact ParcelBody.names ∧
      (importIn (notedText "fragile")).body.length ≤ bodyLimit ∧
      (handle (parcelIn (notedText "fragile")) (opening TimedCache.empty)).1.status = 201 ∧
      (handle (importIn (notedText "fragile")) (opening CacheServer.empty)).1 = importedOne ∧
      (handle (parcelIn (notedText "fragile")) (opening TimedCache.empty)).2.store.blurred =
        (handle (importIn (notedText "fragile")) (opening CacheServer.empty)).2.store.blurred := by
  have beside : (opening TimedCache.empty).StandsBeside (opening CacheServer.empty) := ⟨rfl, rfl, rfl, rfl⟩
  have reads : Tree.ofRunes? (decode (notedText "fragile")) = some (notedTree (runes "fragile")) :=
    reads_notedText (by decide +kernel)
  have regular : (notedTree (runes "fragile")).Regular (fun _ => True) 1 :=
    regular_notedTree (fun _ => trivial) trivial
  have intact : (notedTree (runes "fragile")).Regular (none ∉ ·) 1 :=
    regular_notedTree (fun s => by simp [runes]) (by simp [runes])
  have others : (notedTree (runes "fragile")).OthersIntact ParcelBody.names := by
    obtain - | - | - | - | - | ⟨each, -, -⟩ := intact
    exact fun f hf _ => ⟨0, each f hf⟩
  have small : (importIn (notedText "fragile")).body.length ≤ bodyLimit := by decide +kernel
  have created : (handle (parcelIn (notedText "fragile")) (opening TimedCache.empty)).1.status = 201 := by decide +kernel
  obtain ⟨answers, stores⟩ := comes_in_alike caches_dropQuietly.1 caches_dropQuietly.2.1 beside reads regular
    others (by decide) small
  exact ⟨caches_dropQuietly.1, caches_dropQuietly.2.1, beside, reads, regular, others, small, created, answers.1 created, stores⟩

/-- Half a pair of surrogates in the note is skipped with the note, and is refused where the record becomes a value. -/
theorem skipped_by_one_alone :
    (∃ t, Tree.ofRunes? (decode (notedText "\\ud800")) = some t ∧ t.Regular (fun _ => True) 1) ∧
      (importIn (notedText "\\ud800")).body.length ≤ bodyLimit ∧
      ¬ ((handle (parcelIn (notedText "\\ud800")) (opening TimedCache.empty)).1.status = 201 ↔
        (handle (importIn (notedText "\\ud800")) (opening TimedCache.empty)).1 = importedOne) ∧
      (handle (parcelIn (notedText "\\ud800")) (opening TimedCache.empty)).2.store.blurred ≠
        (handle (importIn (notedText "\\ud800")) (opening TimedCache.empty)).2.store.blurred := by
  have tokens : Token.ofRunes? (decode (notedText "\\ud800")) = some (notedTree [none]).tokens := by decide +kernel
  have small : (importIn (notedText "\\ud800")).body.length ≤ bodyLimit := by decide +kernel
  obtain ⟨created, turnedAway, one, none⟩ :
      (handle (parcelIn (notedText "\\ud800")) (opening TimedCache.empty)).1.status = 201 ∧
        (handle (importIn (notedText "\\ud800")) (opening TimedCache.empty)).1.status = 400 ∧
        (handle (parcelIn (notedText "\\ud800")) (opening TimedCache.empty)).2.store.blurred.historyIds = 1 ∧
        (handle (importIn (notedText "\\ud800")) (opening TimedCache.empty)).2.store.blurred.historyIds = 0 := by
    decide +kernel
  refine ⟨⟨_, reads_notedText tokens, regular_notedTree (fun _ => trivial) trivial⟩, small, fun both => ?_, fun same => ?_⟩
  · rw [both.1 created] at turnedAway
    cases turnedAway
  · rw [same, none] at one
    cases one

end Http

end PickupPoint
