/-
A history is read from its own document.

The fields of a record are found by their names (`members?_own`), and each is read from its text. So the document of a
history holds that history, or cannot be read: an id may need more bits than a reader has, and a year may be none that
a date may have (`historyOfText?_historyText`).
-/
import Mathlib.Data.List.Nodup
import PickupPoint.Document
import PickupPoint.Proofs.JsonText
import PickupPoint.Proofs.TimeText

namespace PickupPoint

open Json Text

namespace Json

/-! ## Fields -/

theorem filter_key {β : Type} {l : List (String × β)} (distinct : (l.map (·.1)).Nodup) {key : String} {b : β}
    (h : (key, b) ∈ l) : l.filter (·.1 == key) = [(key, b)] := by
  induction l with
  | nil => cases h
  | cons entry l ih =>
    rw [List.map_cons, List.nodup_cons] at distinct
    rcases List.mem_cons.1 h with rfl | h
    · have others : l.filter (·.1 == key) = [] := by
        refine List.filter_eq_nil_iff.2 fun entry hentry heq => distinct.1 ?_
        exact List.mem_map.2 ⟨entry, hentry, beq_iff_eq.1 heq⟩
      simp [others]
    · have other : entry.1 ≠ key := fun heq => distinct.1 (List.mem_map.2 ⟨_, h, heq.symm⟩)
      simp [other, ih distinct.2 h]

theorem mapM_eq_some {α β : Type} {f : α → Option β} {g : α → β} {l : List α} (h : ∀ a ∈ l, f a = some (g a)) :
    l.mapM f = some (l.map g) := by
  induction l with
  | nil => rfl
  | cons a l ih =>
    rw [List.mapM_cons, h a List.mem_cons_self, ih fun b hb => h b (List.mem_cons_of_mem a hb)]
    rfl

theorem fieldTrees_eq (fields : List (String × Json)) :
    fieldTrees fields = fields.map fun f => (runes f.1, f.2.tree) := by
  induction fields with
  | nil => rfl
  | cons field fields ih => rw [fieldTrees, ih]; rfl

theorem itemTrees_eq (items : List Json) : itemTrees items = items.map tree := by
  induction items with
  | nil => rfl
  | cons item items ih => rw [itemTrees, ih]; rfl

/-- Asked for fields that it has, an object has each of them once. -/
theorem members?_of_mem {names : List String} {fields : List (String × Json)} (distinct : (fields.map (·.1)).Nodup)
    {value : String → Json} (mem : ∀ name ∈ names, (name, value name) ∈ fields) (levels : Nat) :
    (object fields).tree.members? names (levels + 1) = some (names.map fun name => some (value name).tree, levels) := by
  have kept : (fieldTrees fields).mapM (fun x => (intact? x.1).map (·, x.2)) =
      some (fields.map fun f => (f.1, f.2.tree)) := by
    rw [fieldTrees_eq, List.mapM_map]
    exact mapM_eq_some fun f _ => by simp [intact?_runes]
  have keys : ((fields.map fun f => (f.1, f.2.tree)).map (·.1)).Nodup := by
    rw [List.map_map]; exact distinct
  show (fieldsNamed? names (fieldTrees fields)).map _ = _
  rw [fieldsNamed?, kept, Option.bind_eq_bind, Option.bind_some,
    mapM_eq_some (g := fun name => some (value name).tree)]
  · rfl
  · intro name hname
    have found := filter_key keys (List.mem_map.2 ⟨_, mem name hname, rfl⟩)
    simp only [found]

/-- Asked for its own fields, an object has each of them. -/
theorem members?_own {names : List String} {fields : List (String × Json)} (own : fields.map (·.1) = names)
    (distinct : names.Nodup) (levels : Nat) :
    (object fields).tree.members? names (levels + 1) = some (fields.map fun f => some f.2.tree, levels) := by
  subst own
  have each : ∀ name, ∃ v, name ∈ fields.map (·.1) → (name, v) ∈ fields := by
    intro name
    by_cases h : name ∈ fields.map (·.1)
    · obtain ⟨f, hf, rfl⟩ := List.mem_map.1 h
      exact ⟨f.2, fun _ => hf⟩
    · exact ⟨.null, fun mem => absurd mem h⟩
  choose value mem using each
  rw [members?_of_mem distinct mem, List.map_map]
  congr 2
  refine List.map_congr_left fun f hf => ?_
  have same : (f.1, value f.1) = f :=
    List.inj_on_of_nodup_map distinct (mem f.1 (List.mem_map.2 ⟨f, hf, rfl⟩)) hf rfl
  have own : value f.1 = f.2 := congrArg Prod.snd same
  rw [Function.comp_apply, own]

end Json

/-! ## Entries -/

open Decoder

theorem instant_of_text {t : Instant} (h : t.Proper) (levels : Nat) :
    leaf instant? levels (text t.zuluText).tree =
      if Instant.isYear (Time.Date.ofDays (t.second / 86400)).year then some t else none := by
  rw [leaf_text, instant?, asText?, Option.bind_some, Instant.parse?_zuluText h]

theorem decodeStatus_text (s : Status) (levels : Nat) : decodeStatus levels (text s.text).tree = some s := by
  rw [decodeStatus, name, leaf_text]
  exact Status.ofText?_text s

/-- an entry that a reader can take in -/
def HistoryEntry.Readable (e : HistoryEntry) : Prop :=
  fitsSigned 64 e.id = true ∧ e.orderId ≤ maxNatural ∧
    Instant.isYear (Time.Date.ofDays (e.createdAt.second / 86400)).year = true

instance (e : HistoryEntry) : Decidable e.Readable := inferInstanceAs (Decidable (_ ∧ _))

theorem decodeHistoryEntry_toJson {e : HistoryEntry} (h : e.createdAt.Proper) (levels : Nat) :
    decodeHistoryEntry (levels + 1) e.toJson.tree = if e.Readable then some e else none := by
  have distinct : ["id", "order_id", "status", "created_at"].Nodup := by decide
  have members : e.toJson.tree.members? ["id", "order_id", "status", "created_at"] (levels + 1) = _ :=
    members?_own (by rfl) distinct levels
  rw [decodeHistoryEntry, members]
  simp only [Option.bind_eq_bind, Option.bind_some, List.map_cons, List.map_nil, required, leaf_signed, leaf_natural,
    decodeStatus_text, instant_of_text h]
  unfold HistoryEntry.Readable
  by_cases hid : fitsSigned 64 e.id = true <;> by_cases horder : e.orderId ≤ maxNatural <;>
    by_cases hyear : Instant.isYear (Time.Date.ofDays (e.createdAt.second / 86400)).year = true <;>
    simp [hid, horder, hyear]

theorem plain_toJson (e : HistoryEntry) : Plain e.toJson := by
  refine .object fun f hf => ?_
  simp only [List.mem_cons, List.not_mem_nil, or_false] at hf
  rcases hf with rfl | rfl | rfl | rfl
  · exact .integer _
  · exact .integer _
  · exact .text _
  · exact .text _

/-- **Histories are read from their own documents**, unless an entry cannot be taken in. -/
theorem historyOfText?_historyText {history : List HistoryEntry} (proper : ∀ e ∈ history, e.createdAt.Proper) :
    historyOfText? (historyText history) = if ∀ e ∈ history, e.Readable then some history else none := by
  have plain : Plain (.array (history.map HistoryEntry.toJson)) := by
    refine .array fun v hv => ?_
    obtain ⟨e, -, rfl⟩ := List.mem_map.1 hv
    exact plain_toJson e
  have entries : historyOfText? (historyText history) =
      history.mapM fun e => decodeHistoryEntry (125 + 1) e.toJson.tree := by
    rw [historyOfText?, Decoder.run, historyText, parse?_toText plain, Option.bind_some]
    show (itemTrees (history.map HistoryEntry.toJson)).mapM (decodeHistoryEntry (125 + 1)) = _
    rw [itemTrees_eq, List.map_map, List.mapM_map]
    rfl
  rw [entries]
  clear plain entries
  induction history with
  | nil => rfl
  | cons e history ih =>
    rw [List.mapM_cons, decodeHistoryEntry_toJson (proper e List.mem_cons_self),
      ih fun e he => proper e (List.mem_cons_of_mem _ he)]
    by_cases first : e.Readable
    · by_cases rest : ∀ e ∈ history, e.Readable
      · rw [if_pos first, if_pos rest, if_pos (List.forall_mem_cons.2 ⟨first, rest⟩)]; rfl
      · rw [if_pos first, if_neg rest, if_neg fun h => rest (List.forall_mem_cons.1 h).2]; rfl
    · rw [if_neg first, if_neg fun h => first (List.forall_mem_cons.1 h).1]; rfl

/-- What a text of a history reads as is that history. -/
theorem eq_of_historyText {history h : List HistoryEntry} (proper : ∀ e ∈ history, e.createdAt.Proper)
    (read : historyOfText? (historyText history) = some h) : h = history := by
  rw [historyOfText?_historyText proper] at read
  split_ifs at read
  exact (Option.some.inj read).symm

end PickupPoint
