/-
A record reads alike from its text and from its value.

A record in a body of its own is read from its text, field by field, and what nobody asks for is skipped. One in a list
of others has become a value before its fields are looked up. Where nothing is odd about a text (`Tree.Regular`) it has a
value (`Tree.Regular.keeps`), and its fields are the same both ways (`Tree.Regular.record`). A string that is no Unicode
text leaves neither, unless it is among what is skipped (`Tree.Regular.intact`, `Tree.Regular.intact_of_record`).
-/
import PickupPoint.Proofs.HistoryText

namespace PickupPoint.Json

open Text

/-! ## Strings -/

/-- An intact text is the runes of a string. -/
theorem runes_lossy {rs : List Rune} (intact : none ∉ rs) : runes (lossy rs) = rs := by
  have each : ∀ r ∈ rs, some (r.getD '\ufffd') = r := by
    intro r hr
    rcases r with _ | c
    · exact absurd hr intact
    · rfl
  rw [runes, lossy, String.toList_ofList, List.map_map]
  exact (List.map_congr_left each).trans (List.map_id' rs)

theorem lossy_runes (s : String) : lossy (runes s) = s := by
  rw [lossy, runes, List.map_map]
  exact (congrArg String.ofList (List.map_id' _)).trans String.ofList_toList

theorem intact?_lossy {rs : List Rune} (intact : none ∉ rs) : intact? rs = some (lossy rs) := by
  rw [← runes_lossy intact, intact?_runes, runes_lossy intact]

/-! ## Regular texts -/

/-- Containers are nested at most so many levels deep, every number has a value, no object repeats a key, and strings,
keys among them, are as asked. -/
inductive Tree.Regular (asked : List Rune → Prop) : Nat → Tree → Prop
  | null {levels : Nat} : Regular asked levels .null
  | bool {levels : Nat} (b : Bool) : Regular asked levels (.bool b)
  | numeral {levels : Nat} {n : Numeral} {v : Json} (value : n.value? = some v) : Regular asked levels (.numeral n)
  | text {levels : Nat} {rs : List Rune} (string : asked rs) : Regular asked levels (.text rs)
  | array {levels : Nat} {items : List Tree} (each : ∀ t ∈ items, Regular asked levels t) :
    Regular asked (levels + 1) (.array items)
  | object {levels : Nat} {fields : List (List Rune × Tree)} (each : ∀ f ∈ fields, Regular asked levels f.2)
    (keys : ∀ f ∈ fields, asked f.1) (distinct : (fields.map (·.1)).Nodup) :
    Regular asked (levels + 1) (.object fields)

/-- the value is kept of the tree wherever so many levels are left -/
def Tree.Keeps (t : Tree) (levels : Nat) (v : Json) : Prop := ∀ n, levels ≤ n → t.keep? n = some v

section Keeping

variable {levels n : Nat}

theorem keeps_text {rs : List Rune} (intact : none ∉ rs) : (Tree.text rs).Keeps levels (.text (lossy rs)) := by
  intro n _
  rw [Tree.keep?, intact?_lossy intact]
  rfl

theorem keepItems?_eq {items : List Tree} {value : Tree → Json} (h : ∀ t ∈ items, t.Keeps levels (value t))
    (room : levels ≤ n) : Tree.keepItems? n items = some (items.map value) := by
  induction items with
  | nil => rfl
  | cons t items ih =>
    rw [Tree.keepItems?, h t List.mem_cons_self n room, ih fun u hu => h u (List.mem_cons_of_mem t hu)]
    rfl

theorem keepFields?_eq {fields : List (List Rune × Tree)} {value : List Rune × Tree → Json}
    (h : ∀ f ∈ fields, f.2.Keeps levels (value f)) (intact : ∀ f ∈ fields, none ∉ f.1) (room : levels ≤ n) :
    Tree.keepFields? n fields = some (fields.map fun f => (lossy f.1, value f)) := by
  induction fields with
  | nil => rfl
  | cons f fields ih =>
    obtain ⟨key, t⟩ := f
    have first : t.keep? n = some (value (key, t)) := h (key, t) List.mem_cons_self n room
    have string : intact? key = some (lossy key) := intact?_lossy (intact (key, t) List.mem_cons_self)
    rw [Tree.keepFields?, string, first,
      ih (fun g hg => h g (List.mem_cons_of_mem _ hg)) fun g hg => intact g (List.mem_cons_of_mem _ hg)]
    rfl

theorem keeps_array {items : List Tree} {value : Tree → Json} (h : ∀ t ∈ items, t.Keeps levels (value t)) :
    (Tree.array items).Keeps (levels + 1) (.array (items.map value)) := by
  intro n room
  rw [Tree.keep?, if_neg (by omega), keepItems?_eq h (Nat.le_sub_of_add_le room)]
  rfl

theorem keeps_object {fields : List (List Rune × Tree)} {value : List Rune × Tree → Json}
    (h : ∀ f ∈ fields, f.2.Keeps levels (value f)) (intact : ∀ f ∈ fields, none ∉ f.1) :
    (Tree.object fields).Keeps (levels + 1) (.object (fields.map fun f => (lossy f.1, value f))) := by
  intro n room
  rw [Tree.keep?, if_neg (by omega), keepFields?_eq h intact (Nat.le_sub_of_add_le room)]
  rfl

end Keeping

instance : Nonempty Json := ⟨.null⟩

/-- A text about which nothing is odd has a value. -/
theorem Tree.Regular.keeps {levels : Nat} {t : Tree} (h : t.Regular (none ∉ ·) levels) : ∃ v, t.Keeps levels v := by
  induction h with
  | null => exact ⟨.null, fun _ _ => rfl⟩
  | bool b => exact ⟨.bool b, fun _ _ => rfl⟩
  | numeral value => exact ⟨_, fun _ _ => value⟩
  | text string => exact ⟨_, keeps_text string⟩
  | array _ ih =>
    choose! value kept using ih
    exact ⟨_, keeps_array kept⟩
  | object _ keys _ ih =>
    choose! value kept using ih
    exact ⟨_, keeps_object kept keys⟩

/-! ## Fields -/

/-- Of several fields with one key the last one is found. -/
theorem get?_eq (fields : List (String × Json)) (key : String) :
    (Json.object fields).get? key = (fields.filter (·.1 == key)).getLast?.map (·.2) := by
  have found : ∀ l : List (String × Json), l.findRev? (·.1 == key) = (l.filter (·.1 == key)).getLast? := by
    intro l
    rw [List.findRev?_eq_find?_reverse, ← List.head?_filter, List.filter_reverse, List.head?_reverse]
  rw [get?, found]

section Fields

variable {levels n : Nat} {fields : List (List Rune × Tree)} {value : List Rune × Tree → Json}

/-- the member of a record as a value, if there is one -/
def keptMember? (n : Nat) : Option Tree → Option (Option Json)
  | some t => (t.keep? n).map some
  | none => some none

theorem distinct_lossy (intact : ∀ f ∈ fields, none ∉ f.1) (distinct : (fields.map (·.1)).Nodup) {β : Type}
    (value : List Rune × Tree → β) : ((fields.map fun f => (lossy f.1, value f)).map (·.1)).Nodup := by
  have apart : ((fields.map (·.1)).map lossy).Nodup := by
    refine List.Nodup.map_on (fun x hx y hy same => ?_) distinct
    obtain ⟨f, hf, rfl⟩ := List.mem_map.1 hx
    obtain ⟨g, hg, rfl⟩ := List.mem_map.1 hy
    rw [← runes_lossy (intact f hf), same, runes_lossy (intact g hg)]
  rw [List.map_map] at apart ⊢
  exact apart

/-- A key stands for one field or for none, whatever is made of the fields. -/
theorem filter_fields (intact : ∀ f ∈ fields, none ∉ f.1) (distinct : (fields.map (·.1)).Nodup) (key : String) :
    (∃ f ∈ fields, ∀ {β : Type} (value : List Rune × Tree → β),
      (fields.map fun f => (lossy f.1, value f)).filter (·.1 == key) = [(key, value f)]) ∨
    ∀ {β : Type} (value : List Rune × Tree → β),
      (fields.map fun f => (lossy f.1, value f)).filter (·.1 == key) = [] := by
  by_cases has : ∃ f ∈ fields, lossy f.1 = key
  · obtain ⟨f, hf, rfl⟩ := has
    refine .inl ⟨f, hf, fun value => ?_⟩
    exact filter_key (distinct_lossy intact distinct value) (List.mem_map.2 ⟨f, hf, rfl⟩)
  · refine .inr fun value => List.filter_eq_nil_iff.2 fun x hx same => has ?_
    obtain ⟨f, hf, rfl⟩ := List.mem_map.1 hx
    exact ⟨f, hf, beq_iff_eq.1 same⟩

/-- What is found of an object under a name is what its value has there. -/
theorem member_alike (h : ∀ f ∈ fields, f.2.Keeps levels (value f)) (intact : ∀ f ∈ fields, none ∉ f.1)
    (distinct : (fields.map (·.1)).Nodup) (room : levels ≤ n) (name : String) :
    ∃ member : Option Tree,
      (fields.map fun f => (lossy f.1, f.2)).filter (·.1 == name) = member.toList.map (name, ·) ∧
      keptMember? n member = some ((Json.object (fields.map fun f => (lossy f.1, value f))).get? name) := by
  rw [get?_eq]
  rcases filter_fields intact distinct name with ⟨f, hf, one⟩ | no
  · refine ⟨some f.2, one _, ?_⟩
    rw [one, keptMember?, h f hf n room]
    rfl
  · exact ⟨none, no _, by rw [no]; rfl⟩

theorem members_object (h : ∀ f ∈ fields, f.2.Keeps levels (value f)) (intact : ∀ f ∈ fields, none ∉ f.1)
    (distinct : (fields.map (·.1)).Nodup) (room : levels ≤ n) (names : List String) :
    (Tree.object fields).keptMembers? names (n + 1) =
      members? names (.object (fields.map fun f => (lossy f.1, value f))) := by
  choose member found kept using member_alike h intact distinct room
  have strings : fields.mapM (fun f : List Rune × Tree => (intact? f.1).map (·, f.2)) =
      some (fields.map fun f => (lossy f.1, f.2)) := by
    refine mapM_eq_some fun f hf => ?_
    rw [intact?_lossy (intact f hf)]
    rfl
  have named : fieldsNamed? names fields = some (names.map member) := by
    rw [fieldsNamed?, strings]
    refine mapM_eq_some fun name _ => ?_
    rw [found]
    rcases member name with _ | t <;> rfl
  show ((fieldsNamed? names fields).map (·, n)).bind (fun m => m.1.mapM (keptMember? m.2)) = _
  rw [named]
  show (names.map member).mapM (keptMember? n) = _
  rw [List.mapM_map]
  exact mapM_eq_some fun name _ => kept name

theorem members_array {items : List Tree} {value : Tree → Json} (h : ∀ t ∈ items, t.Keeps levels (value t))
    (room : levels ≤ n) (names : List String) :
    (Tree.array items).keptMembers? names (n + 1) = members? names (.array (items.map value)) := by
  have kept : ∀ member ∈ itemsOf names.length items, keptMember? n member = some (member.map value) := by
    intro member hm
    obtain ⟨i, -, rfl⟩ := List.mem_map.1 hm
    rcases hi : items[i]? with _ | t
    · rfl
    · rw [keptMember?, h t (List.mem_of_getElem? hi) n room]
      rfl
  have values : (itemsOf names.length items).map (·.map value) = itemsOf names.length (items.map value) := by
    simp [itemsOf]
  show (if items.length ≤ names.length then _ else _ : Option _).bind _ = _
  rw [members?, List.length_map]
  split_ifs
  · exact (mapM_eq_some kept).trans (congrArg some values)
  · rfl

end Fields

/-- A number is no record. -/
theorem members?_number {numeral : Numeral} {v : Json} (h : numeral.value? = some v) (names : List String) :
    members? names v = none := by
  have float : numeral.float?.map Json.float = some v → members? names v = none := by
    intro double
    obtain ⟨x, -, rfl⟩ := Option.map_eq_some_iff.1 double
    rfl
  unfold Numeral.value? at h
  rcases wholeDigits numeral.whole with ⟨whole, dropped⟩
  dsimp only at h
  split_ifs at h <;> first | exact float h | cases h; rfl

/-- **A record reads alike from its text and from its value**, if nothing is odd about the text. -/
theorem Tree.Regular.record {levels n : Nat} {t : Tree} (h : t.Regular (none ∉ ·) levels) (room : levels ≤ n) :
    ∃ v, t.Keeps levels v ∧ ∀ names, t.keptMembers? names n = Json.members? names v := by
  cases h with
  | null => exact ⟨.null, fun _ _ => rfl, fun _ => by cases n <;> rfl⟩
  | bool b => exact ⟨.bool b, fun _ _ => rfl, fun _ => by cases n <;> rfl⟩
  | numeral value =>
    refine ⟨_, fun _ _ => value, fun names => ?_⟩
    rw [members?_number value]
    cases n <;> rfl
  | text string => exact ⟨_, keeps_text string, fun _ => by cases n <;> rfl⟩
  | array each =>
    obtain ⟨n, rfl⟩ := Nat.exists_eq_add_of_le' (Nat.le_of_add_left_le room)
    choose! value kept using fun t ht => (each t ht).keeps
    exact ⟨_, keeps_array kept, members_array kept (Nat.le_of_succ_le_succ room)⟩
  | object each keys distinct =>
    obtain ⟨n, rfl⟩ := Nat.exists_eq_add_of_le' (Nat.le_of_add_left_le room)
    choose! value kept using fun f hf => (each f hf).keeps
    exact ⟨_, keeps_object kept keys, members_object kept keys distinct (Nat.le_of_succ_le_succ room)⟩

/-! ## Strings that are none -/

theorem exists_of_mapM {α β : Type} {f : α → Option β} {l : List α} {bs : List β} (h : l.mapM f = some bs) :
    ∀ a ∈ l, ∃ b ∈ bs, f a = some b := by
  induction l generalizing bs with
  | nil => nofun
  | cons a l ih =>
    rw [List.mapM_cons] at h
    obtain ⟨b, first, h⟩ := Option.bind_eq_some_iff.1 h
    obtain ⟨rest, others, ⟨⟩⟩ := Option.bind_eq_some_iff.1 h
    rw [List.forall_mem_cons]
    refine ⟨⟨b, List.mem_cons_self, first⟩, fun x hx => ?_⟩
    obtain ⟨c, hc, found⟩ := ih others x hx
    exact ⟨c, List.mem_cons_of_mem b hc, found⟩

theorem intact_of_intact? {rs : List Rune} {s : String} (h : intact? rs = some s) : none ∉ rs := by
  rw [intact?_eq_some_iff.1 h]
  simp [runes]

section Intact

variable {asked : List Rune → Prop} {levels n : Nat}

theorem kept_of_keepItems? {items : List Tree} {vs : List Json} (h : Tree.keepItems? n items = some vs) :
    ∀ t ∈ items, ∃ v, t.keep? n = some v := by
  induction items generalizing vs with
  | nil => nofun
  | cons t items ih =>
    obtain ⟨v, first, h⟩ := Option.bind_eq_some_iff.1 h
    obtain ⟨rest, others, -⟩ := Option.bind_eq_some_iff.1 h
    exact List.forall_mem_cons.2 ⟨⟨v, first⟩, ih others⟩

theorem kept_of_keepFields? {fields : List (List Rune × Tree)} {vs : List (String × Json)}
    (h : Tree.keepFields? n fields = some vs) : ∀ f ∈ fields, none ∉ f.1 ∧ ∃ v, f.2.keep? n = some v := by
  induction fields generalizing vs with
  | nil => nofun
  | cons f fields ih =>
    obtain ⟨key, string, h⟩ := Option.bind_eq_some_iff.1 h
    obtain ⟨v, first, h⟩ := Option.bind_eq_some_iff.1 h
    obtain ⟨rest, others, -⟩ := Option.bind_eq_some_iff.1 h
    exact List.forall_mem_cons.2 ⟨⟨intact_of_intact? string, v, first⟩, ih others⟩

/-- What has a value has no string that is none. -/
theorem Tree.Regular.intact {t : Tree} (h : t.Regular asked levels) {v : Json} (kept : t.keep? n = some v) :
    t.Regular (none ∉ ·) levels := by
  induction h generalizing n v with
  | null => exact .null
  | bool b => exact .bool b
  | numeral value => exact .numeral value
  | text _ =>
    obtain ⟨s, string, -⟩ := Option.map_eq_some_iff.1 kept
    exact .text (intact_of_intact? string)
  | array _ ih =>
    rw [keep?] at kept
    split_ifs at kept
    obtain ⟨vs, items, -⟩ := Option.map_eq_some_iff.1 kept
    refine .array fun t ht => ?_
    obtain ⟨v, value⟩ := kept_of_keepItems? items t ht
    exact ih t ht value
  | object _ _ distinct ih =>
    rw [keep?] at kept
    split_ifs at kept
    obtain ⟨vs, fields, -⟩ := Option.map_eq_some_iff.1 kept
    refine .object (fun f hf => ?_) (fun f hf => (kept_of_keepFields? fields f hf).1) distinct
    obtain ⟨-, v, value⟩ := kept_of_keepFields? fields f hf
    exact ih f hf value

/-- Nothing is odd about the text, however deep it is. -/
def Tree.Intact (t : Tree) : Prop := ∃ levels, t.Regular (none ∉ ·) levels

theorem Tree.Regular.of_intact {t : Tree} (h : t.Regular asked levels) (intact : t.Intact) :
    t.Regular (none ∉ ·) levels := by
  obtain ⟨deep, regular⟩ := intact
  obtain ⟨v, kept⟩ := regular.keeps
  exact h.intact (kept deep le_rfl)

theorem Tree.Regular.of_member {t : Tree} (h : t.Regular asked levels) {m : Option Json}
    (kept : keptMember? n (some t) = some m) : t.Regular (none ∉ ·) levels := by
  obtain ⟨v, value, -⟩ := Option.map_eq_some_iff.1 kept
  exact h.intact value

/-- In the fields of a record that have none of the names, all strings are Unicode text. -/
def Tree.OthersIntact (names : List String) : Tree → Prop
  | .object fields => ∀ f ∈ fields, f.1 ∉ names.map runes → f.2.Intact
  | _ => True

theorem intact_array {items : List Tree} (each : ∀ t ∈ items, t.Regular asked levels) {names : List String}
    {ms : List (Option Json)} (read : (Tree.array items).keptMembers? names (n + 1) = some ms) :
    ∀ t ∈ items, t.Regular (none ∉ ·) levels := by
  obtain ⟨⟨members, m⟩, found, kept⟩ := Option.bind_eq_some_iff.1 read
  change (if items.length ≤ names.length then _ else _) = _ at found
  split_ifs at found with fits
  cases found
  intro t ht
  obtain ⟨i, hi, rfl⟩ := List.getElem_of_mem ht
  have listed : some items[i] ∈ itemsOf names.length items :=
    List.mem_map.2 ⟨i, List.mem_range.2 (hi.trans_le fits), List.getElem?_eq_getElem hi⟩
  obtain ⟨v, -, value⟩ := exists_of_mapM kept _ listed
  exact (each _ ht).of_member value

theorem intact_object {fields : List (List Rune × Tree)} (each : ∀ f ∈ fields, f.2.Regular asked levels)
    (distinct : (fields.map (·.1)).Nodup) {names : List String} (others : (Tree.object fields).OthersIntact names)
    {ms : List (Option Json)} (read : (Tree.object fields).keptMembers? names (n + 1) = some ms) :
    (∀ f ∈ fields, none ∉ f.1) ∧ ∀ f ∈ fields, f.2.Regular (none ∉ ·) levels := by
  obtain ⟨⟨members, m⟩, listed, kept⟩ := Option.bind_eq_some_iff.1 read
  obtain ⟨_, looked, ⟨⟩⟩ := Option.map_eq_some_iff.1 listed
  obtain ⟨pairs, strings, found⟩ := Option.bind_eq_some_iff.1 looked
  have intact : ∀ f ∈ fields, none ∉ f.1 := by
    intro f hf
    obtain ⟨pair, -, string⟩ := exists_of_mapM strings f hf
    obtain ⟨s, string, -⟩ := Option.map_eq_some_iff.1 string
    exact intact_of_intact? string
  obtain rfl : fields.map (fun f => (lossy f.1, f.2)) = pairs := by
    refine Option.some.inj ((mapM_eq_some fun f hf => ?_).symm.trans strings)
    show (intact? f.1).map (·, f.2) = _
    rw [intact?_lossy (intact f hf)]
    rfl
  refine ⟨intact, fun f hf => ?_⟩
  by_cases named : f.1 ∈ names.map runes
  · obtain ⟨name, hname, same⟩ := List.mem_map.1 named
    have own : (name, f.2) ∈ (fields.map fun f => (lossy f.1, f.2)).filter (·.1 == name) := by
      refine List.mem_filter.2 ⟨List.mem_map.2 ⟨f, hf, ?_⟩, beq_self_eq_true name⟩
      rw [← same, lossy_runes]
    obtain ⟨member, hm, one⟩ := exists_of_mapM found name hname
    obtain ⟨v, -, value⟩ := exists_of_mapM kept member hm
    rcases filter_fields intact distinct name with ⟨g, -, only⟩ | no
    · rw [only] at own one
      have itself : f.2 = g.2 := (Prod.mk.inj (List.mem_singleton.1 own)).2
      cases one
      rw [← itself] at value
      exact (each f hf).of_member value
    · rw [no] at own
      cases own
  · exact (each f hf).of_intact (others f hf named)

/-- A record whose fields can be read has no string that is none, if there is none where nobody reads. -/
theorem Tree.Regular.intact_of_record {t : Tree} (h : t.Regular asked levels) {names : List String}
    (others : t.OthersIntact names) {ms : List (Option Json)} (read : t.keptMembers? names n = some ms) :
    t.Regular (none ∉ ·) levels := by
  cases h with
  | null => exact .null
  | bool b => exact .bool b
  | numeral value => exact .numeral value
  | text => cases n <;> cases read
  | array each =>
    cases n with
    | zero => cases read
    | succ n => exact .array (intact_array each read)
  | object each _ distinct =>
    cases n with
    | zero => cases read
    | succ n =>
      obtain ⟨keys, values⟩ := intact_object each distinct others read
      exact .object values keys distinct

end Intact

end PickupPoint.Json
