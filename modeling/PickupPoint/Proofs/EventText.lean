/-
Events are read from their own documents, as histories are.

A column of JSON keeps the fields of a record by their names and not in their order. So an event is read from every
document that is its own but for the order of fields, in the records within it too (`Json.Reordered`). Its id is read
from 32 digits with hyphens among them (`Uuid.parse?_toText`). `documents_read_back` says of both kinds of documents that
whatever can be held at all is read as it was written.
-/
import PickupPoint.Proofs.HistoryText

namespace PickupPoint

open Json Text

/-! ## Identifiers -/

namespace Uuid

theorem length_hexDigits (count n : Nat) : (hexDigits count n).length = count := by
  induction count generalizing n with
  | zero => rfl
  | succ count ih => rw [hexDigits, List.length_append, ih]; rfl

theorem foldlM_hexDigits (count n : Nat) :
    (hexDigits count n).foldlM (fun acc c => (hexDigit? c).map (acc * 16 + ·)) 0 = some (n % 16 ^ count) := by
  induction count generalizing n with
  | zero => rw [Nat.pow_zero, Nat.mod_one]; rfl
  | succ count ih =>
    have last : hexDigit? (Nat.digitChar (n % 16)) = some (n % 16) := Lexer.hexDigit?_digitChar (Nat.mod_lt n (by omega))
    have number : n / 16 % 16 ^ count * 16 + n % 16 = n % 16 ^ (count + 1) := by
      rw [Nat.pow_succ', Nat.mod_mul]
      omega
    rw [hexDigits, List.foldlM_append, ih]
    simp [last, number]

theorem ofHex?_hexDigits {u : Uuid} (h : u.value < 16 ^ 32) : ofHex? (hexDigits 32 u.value) = some u := by
  rw [ofHex?, if_pos (length_hexDigits ..), foldlM_hexDigits, Nat.mod_eq_of_lt h]
  rfl

/-- The hyphens between groups of digits are left out. -/
theorem ofHyphenated?_groups {a b c d e : List Char} (ha : a.length = 8) (hb : b.length = 4) (hc : c.length = 4)
    (hd : d.length = 4) (he : e.length = 12) :
    ofHyphenated? (a ++ '-' :: (b ++ '-' :: (c ++ '-' :: (d ++ '-' :: e)))) = ofHex? (a ++ b ++ c ++ d ++ e) := by
  have length : (a ++ '-' :: (b ++ '-' :: (c ++ '-' :: (d ++ '-' :: e)))).length = 36 := by
    simp [ha, hb, hc, hd, he]
  have hyphens : [8, 13, 18, 23].all
      ((a ++ '-' :: (b ++ '-' :: (c ++ '-' :: (d ++ '-' :: e))))[·]? == some '-') = true := by
    simp [List.getElem?_append, ha, hb, hc, hd]
  rw [ofHyphenated?, if_pos ⟨length, hyphens⟩]
  congr 1
  simp [List.drop_append, ha, hb, hc, hd, List.drop_eq_nil_of_le]

/-- the groups that digits are written in -/
theorem groups_eq (ds : List Char) :
    ds.take 8 ++ (ds.drop 8).take 4 ++ (ds.drop 12).take 4 ++ (ds.drop 16).take 4 ++ ds.drop 20 = ds := by
  have group : ∀ k, (ds.drop k).take 4 ++ ds.drop (k + 4) = ds.drop k := fun k => by
    rw [← List.drop_drop, List.take_append_drop]
  rw [List.append_assoc, group 16, List.append_assoc, group 12, List.append_assoc, group 8, List.take_append_drop]

/-- **Identifiers are read from their own text.** -/
theorem parse?_toText {u : Uuid} (h : u.value < 16 ^ 32) : parse? u.toText = some u := by
  have length := length_hexDigits 32 u.value
  have digits := ofHex?_hexDigits h
  generalize hds : hexDigits 32 u.value = ds at length digits
  have written : u.toText.toList = ds.take 8 ++ '-' :: ((ds.drop 8).take 4 ++ '-' :: ((ds.drop 12).take 4 ++
      '-' :: ((ds.drop 16).take 4 ++ '-' :: ds.drop 20))) := by
    simp [toText, hds]
  have hyphenated := ofHyphenated?_groups (a := ds.take 8) (b := (ds.drop 8).take 4) (c := (ds.drop 12).take 4)
    (d := (ds.drop 16).take 4) (e := ds.drop 20) (by simp [length]) (by simp [length]) (by simp [length])
    (by simp [length]) (by simp [length])
  have chars : u.toText.toList.length = 36 := by simp [written, length]
  rw [parse?]
  simp only [chars, reduceIte, Nat.reduceEqDiff]
  rw [written, hyphenated, groups_eq, digits]

/-- A random identifier has 32 digits at most. -/
theorem ofRandom_lt (bits : Nat) : (ofRandom bits).value < 16 ^ 32 := by
  have pow : ∀ n, bitLimit n = 2 ^ n := Nat.one_shiftLeft
  have low := Nat.mod_lt bits (Nat.two_pow_pos 62)
  have middle := Nat.mod_lt (bits / 2 ^ 62) (Nat.two_pow_pos 12)
  have high := Nat.mod_lt (bits / 2 ^ 74) (Nat.two_pow_pos 48)
  simp only [ofRandom, pow]
  omega

end Uuid

/-! ## Documents with their fields in another order -/

namespace Json

/-- the same document but for the order of fields, in the objects within it too -/
inductive Reordered : Json → Json → Prop
  | refl (v : Json) : Reordered v v
  | object {fields fields' : List (String × Json)} (keys : (fields'.map (·.1)).Perm (fields.map (·.1)))
    (values : ∀ key v v', (key, v) ∈ fields → (key, v') ∈ fields' → Reordered v v') :
    Reordered (.object fields) (.object fields')

namespace Reordered

variable {v v' : Json}

theorem plain (h : Reordered v v') (hv : Plain v) : Plain v' := by
  induction h with
  | refl => exact hv
  | object keys values ih =>
    obtain - | - | - | - | - | each := hv
    refine .object fun f' hf' => ?_
    obtain ⟨f, hf, same⟩ := List.mem_map.1 (keys.subset (List.mem_map_of_mem hf'))
    exact ih f.1 f.2 f'.2 hf (same ▸ hf') (each f hf)

theorem text {s : String} (h : Reordered (.text s) v) : v = .text s := by cases h; rfl

theorem integer {n : Int} (h : Reordered (.integer n) v) : v = .integer n := by cases h; rfl

/-- Each of the fields is there, and no other. -/
theorem of_mem {fields fields' : List (String × Json)} (keys : (fields'.map (·.1)).Perm (fields.map (·.1)))
    (distinct : (fields.map (·.1)).Nodup) (mem : ∀ f ∈ fields, ∃ v, (f.1, v) ∈ fields' ∧ Reordered f.2 v) :
    Reordered (.object fields) (.object fields') := by
  refine .object keys fun key v v' hv hv' => ?_
  obtain ⟨w, hw, reordered⟩ := mem _ hv
  have one : (key, w) = (key, v') := List.inj_on_of_nodup_map (keys.nodup_iff.2 distinct) hw hv' rfl
  exact (Prod.mk.inj one).2 ▸ reordered

/-- Whatever the order of its fields, they are found by their names. -/
theorem members? {fields : List (String × Json)} (h : Reordered (.object fields) v) (names : List String)
    (own : fields.map (·.1) = names) (distinct : names.Nodup) (levels : Nat) :
    ∃ value : String → Json, (∀ f ∈ fields, Reordered f.2 (value f.1)) ∧
      v.tree.members? names (levels + 1) = some (names.map fun name => some (value name).tree, levels) := by
  obtain ⟨fields', rfl, keys, values⟩ : ∃ fields', v = .object fields' ∧
      (fields'.map (·.1)).Perm (fields.map (·.1)) ∧
      ∀ f ∈ fields, ∀ v', (f.1, v') ∈ fields' → Reordered f.2 v' := by
    cases h with
    | refl =>
      refine ⟨fields, rfl, .refl _, fun f hf v' hv' => ?_⟩
      have one : (f.1, v') = f := List.inj_on_of_nodup_map (own ▸ distinct) hv' hf rfl
      have value : v' = f.2 := congrArg Prod.snd one
      exact value ▸ .refl _
    | object keys values => exact ⟨_, rfl, keys, fun f hf v' hv' => values f.1 f.2 v' hf hv'⟩
  subst own
  have each : ∀ name, ∃ v', name ∈ fields.map (·.1) → (name, v') ∈ fields' := by
    intro name
    by_cases h : name ∈ fields.map (·.1)
    · obtain ⟨f', hf', rfl⟩ := List.mem_map.1 (keys.symm.subset h)
      exact ⟨f'.2, fun _ => hf'⟩
    · exact ⟨.null, fun mem => absurd mem h⟩
  choose value mem using each
  exact ⟨value, fun f hf => values f hf _ (mem f.1 (List.mem_map_of_mem hf)),
    members?_of_mem (keys.nodup_iff.2 distinct) mem levels⟩

end Reordered

end Json

/-! ## Records -/

open Decoder

variable {doc : Json} (levels : Nat)

theorem decodeEventType_text (t : EventType) : decodeEventType levels (text t.text).tree = some t := by
  rw [decodeEventType, name, leaf_text]
  exact EventType.ofText?_text t

theorem decodeActor_reordered {a : Actor} (h : a.id ≤ maxNatural) (reordered : a.toJson.Reordered doc) :
    decodeActor (levels + 1) doc.tree = some a := by
  obtain ⟨value, same, members⟩ := reordered.members? ["type", "id"] rfl (by decide) levels
  simp only [List.forall_mem_cons, List.not_mem_nil, false_imp_iff, implies_true, and_true] at same
  rw [decodeActor, members]
  simp only [Option.bind_eq_bind, Option.bind_some, List.map_cons, List.map_nil, required, same.1.text, same.2.integer,
    leaf_text, leaf_natural, if_pos h]
  rfl

theorem decodeEventOrder_reordered {o : EventOrder} (hid : o.id ≤ maxNatural) (huser : o.userId ≤ maxNatural)
    (reordered : o.toJson.Reordered doc) : decodeEventOrder (levels + 1) doc.tree = some o := by
  obtain ⟨value, same, members⟩ := reordered.members? ["id", "user_id", "status"] rfl (by decide) levels
  simp only [List.forall_mem_cons, List.not_mem_nil, false_imp_iff, implies_true, and_true] at same
  rw [decodeEventOrder, members]
  simp only [Option.bind_eq_bind, Option.bind_some, List.map_cons, List.map_nil, required, same.1.integer,
    same.2.1.integer, same.2.2.text, leaf_natural, decodeStatus_text, if_pos hid, if_pos huser]
  rfl

/-- an instant that a document can hold: in a year that a date may have, and a leap second only as the last of its
minute -/
structure Instant.Representable (t : Instant) : Prop where
  proper : t.Proper
  year : isYear (Time.Date.ofDays (t.second / 86400)).year = true

/-- an event that a document can hold -/
structure Event.Representable (e : Event) : Prop where
  eventId : e.eventId.value < 16 ^ 32
  timestamp : e.timestamp.Representable
  actorId : e.actor.id ≤ maxNatural
  orderId : e.order.id ≤ maxNatural
  userId : e.order.userId ≤ maxNatural

theorem decodeEvent_reordered {e : Event} (h : e.Representable) (reordered : e.toJson.Reordered doc) :
    decodeEvent (levels + 2) doc.tree = some e := by
  obtain ⟨value, same, members⟩ := reordered.members?
    ["event_id", "event_type", "timestamp", "actor", "order", "source"] rfl (by decide) (levels + 1)
  simp only [List.forall_mem_cons, List.not_mem_nil, false_imp_iff, implies_true, and_true] at same
  obtain ⟨eventId, eventType, timestamp, actor, order, source⟩ := same
  have identified : Uuid.parse? e.eventId.toText = some e.eventId := Uuid.parse?_toText h.eventId
  rw [decodeEvent, members]
  simp only [Option.bind_eq_bind, Option.bind_some, List.map_cons, List.map_nil, required, eventId.text, eventType.text,
    timestamp.text, source.text, leaf_text, asText?, identified, decodeEventType_text,
    instant_of_text h.timestamp.proper, if_pos h.timestamp.year, decodeActor_reordered levels h.actorId actor,
    decodeEventOrder_reordered levels h.orderId h.userId order]
  rfl

theorem Event.plain_toJson (e : Event) : Plain e.toJson := by
  have actor : Plain e.actor.toJson := .object <| by
    simp only [List.forall_mem_cons]
    exact ⟨.text _, .integer _, nofun⟩
  have order : Plain e.order.toJson := .object <| by
    simp only [List.forall_mem_cons]
    exact ⟨.integer _, .integer _, .text _, nofun⟩
  refine .object ?_
  simp only [List.forall_mem_cons]
  exact ⟨.text _, .text _, .text _, actor, order, .text _, nofun⟩

/-- the document of an event with the fields of each record in the order of their names, as outboxes keep it -/
def Event.byName (e : Event) : Json := .object [
  ("actor", .object [("id", .integer e.actor.id), ("type", .text e.actor.kind)]),
  ("event_id", .text e.eventId.toText),
  ("event_type", .text e.eventType.text),
  ("order", .object [
    ("id", .integer e.order.id),
    ("status", .text e.order.status.text),
    ("user_id", .integer e.order.userId)]),
  ("source", .text e.source),
  ("timestamp", .text e.timestamp.zuluText)]

theorem Event.reordered_byName (e : Event) : e.toJson.Reordered e.byName := by
  have actor : e.actor.toJson.Reordered (.object [("id", .integer e.actor.id), ("type", .text e.actor.kind)]) := by
    refine .of_mem (.swap ..) (by simp) ?_
    simp only [List.forall_mem_cons]
    exact ⟨⟨_, by simp, .refl _⟩, ⟨_, by simp, .refl _⟩, nofun⟩
  have order : e.order.toJson.Reordered (.object [("id", .integer e.order.id), ("status", .text e.order.status.text),
      ("user_id", .integer e.order.userId)]) := by
    refine .of_mem (.cons _ (.swap ..)) (by simp) ?_
    simp only [List.forall_mem_cons]
    exact ⟨⟨_, by simp, .refl _⟩, ⟨_, by simp, .refl _⟩, ⟨_, by simp, .refl _⟩, nofun⟩
  refine .of_mem ?_ (by simp) ?_
  · simp only [List.map_cons, List.map_nil]
    decide
  simp only [List.forall_mem_cons]
  exact ⟨⟨_, by simp, .refl _⟩, ⟨_, by simp, .refl _⟩, ⟨_, by simp, .refl _⟩, ⟨_, by simp, actor⟩,
    ⟨_, by simp, order⟩, ⟨_, by simp, .refl _⟩, nofun⟩

/-- **Documents are read as they were written.** A history of entries that have ids of 64 bits and representable times
is read from its text as it is. So is an event, whatever identifier its random bits came to, from the text of every
document that is its own but for the order of fields. -/
theorem documents_read_back :
    (∀ history : List HistoryEntry,
        (∀ e ∈ history, fitsSigned 64 e.id = true ∧ e.orderId ≤ maxNatural ∧ e.createdAt.Representable) →
        historyOfText? (historyText history) = some history) ∧
      ∀ (bits : Nat) (timestamp : Instant) (t : EventType) (actor : Actor) (o : Order) (status : Status),
        timestamp.Representable → actor.id ≤ maxNatural → o.id ≤ maxNatural → o.userId ≤ maxNatural →
        ∀ doc, (Event.about (Uuid.ofRandom bits) timestamp t actor o status).toJson.Reordered doc →
          decodeEvent.run doc.toText = some (Event.about (Uuid.ofRandom bits) timestamp t actor o status) := by
  constructor
  · intro history held
    rw [historyOfText?_historyText fun e he => (held e he).2.2.proper]
    exact if_pos fun e he => ⟨(held e he).1, (held e he).2.1, (held e he).2.2.year⟩
  · intro bits timestamp t actor o status time actorId orderId userId doc reordered
    have held : (Event.about (Uuid.ofRandom bits) timestamp t actor o status).Representable :=
      ⟨Uuid.ofRandom_lt bits, time, actorId, orderId, userId⟩
    rw [Decoder.run, parse?_toText (reordered.plain (Event.plain_toJson _)), Option.bind_some]
    exact decodeEvent_reordered 125 held reordered

/-- the last nanosecond of a leap second, in a year of five digits -/
def lateInstant : Instant := ⟨253402300859, 1999999999⟩

theorem documents_read_back_of_late_instant :
    historyOfText? (historyText [⟨-9223372036854775808, maxNatural, .deleted, lateInstant⟩]) =
        some [⟨-9223372036854775808, maxNatural, .deleted, lateInstant⟩] ∧
      decodeEvent.run (Event.about (Uuid.ofRandom 0) lateInstant .orderIssued ⟨"\"client\"\n", maxNatural⟩
        ⟨maxNatural, maxNatural, .accepted, lateInstant, .bare, 1, .ofNat 10⟩ .accepted).byName.toText =
        some (Event.about (Uuid.ofRandom 0) lateInstant .orderIssued ⟨"\"client\"\n", maxNatural⟩
          ⟨maxNatural, maxNatural, .accepted, lateInstant, .bare, 1, .ofNat 10⟩ .accepted) := by
  have held : lateInstant.Representable := ⟨.inr ⟨by decide, by decide⟩, by decide +kernel⟩
  have read := documents_read_back
  refine ⟨read.1 _ fun e he => ?_, read.2 _ _ _ _ _ _ held le_rfl le_rfl le_rfl _ (Event.reordered_byName _)⟩
  obtain rfl := List.mem_singleton.1 he
  exact ⟨by decide, le_rfl, held⟩

end PickupPoint
