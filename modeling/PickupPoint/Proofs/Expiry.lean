/-
The cache in memory as a map whose entries end.

A history is what was asked of the cache, and when. An entry that has ended stays where it is until somebody reads it or
writes its key, so what the cache keeps depends on who read what. What it answers does not: a text is answered just if
the last write of its key set it and its time has not come (`get_iff`), and nothing else in the history counts.

- `serve_keeps`: one request, whatever it is, leaves just the entries that a history calls for, one per key.
- `after_keeps`: so does every history.
- `timed_map`: the answers of the cache and the number of its entries, told from the history alone.
-/
import Mathlib.Data.Set.Card
import PickupPoint.Proofs.Caches

namespace PickupPoint

/-! ## Histories -/

/-- what is asked of the cache -/
inductive CacheRequest where
  | set (key value : String) (ttl : Duration)
  | get (key : String)
  | delete (key : String)
  deriving DecidableEq, Repr

/-- whether a request sets or deletes a key -/
def CacheRequest.Writes (key : String) : CacheRequest → Prop
  | .set k _ _ => k = key
  | .get _ => False
  | .delete k => k = key

instance (key : String) : DecidablePred (CacheRequest.Writes key)
  | .set k _ _ => inferInstanceAs (Decidable (k = key))
  | .get _ => inferInstanceAs (Decidable False)
  | .delete k => inferInstanceAs (Decidable (k = key))

/-- a request and its instant -/
structure CacheEvent where
  time : Instant
  request : CacheRequest
  deriving DecidableEq, Repr

namespace CacheEvent

/-- whether the end of what is set can be counted -/
def Countable (e : CacheEvent) : Prop :=
  match e.request with
  | .set _ _ ttl => (e.time.plus ttl).second ≤ TimedCache.lastSecond
  | _ => True

instance (e : CacheEvent) : Decidable e.Countable := by
  unfold Countable; split <;> infer_instance

/-- whether the event sets just this entry -/
def Sets (x : TimedEntry) (e : CacheEvent) : Prop :=
  ∃ ttl, e.request = .set x.key x.value ttl ∧ x.expiresAt = e.time.plus ttl

/-- whether the entry is gone after the event: its key is written, or is read when the time has come -/
def Ends (x : TimedEntry) (e : CacheEvent) : Prop :=
  e.request.Writes x.key ∨ (e.request = .get x.key ∧ x.expiresAt ≤ e.time)

end CacheEvent

/-- a history whose instants do not go back and where every end can be counted -/
structure Timely (es : List CacheEvent) : Prop where
  inOrder : es.Pairwise (fun a b => a.time ≤ b.time)
  countable : ∀ e ∈ es, e.Countable

theorem Timely.of_append {es fs : List CacheEvent} (h : Timely (es ++ fs)) : Timely es :=
  ⟨(List.pairwise_append.1 h.inOrder).1, fun e he => h.countable e (List.mem_append_left _ he)⟩

theorem Timely.le_last {es : List CacheEvent} {l : CacheEvent} (h : Timely (es ++ [l])) {e : CacheEvent} (he : e ∈ es) :
    e.time ≤ l.time :=
  (List.pairwise_append.1 h.inOrder).2.2 e he l (List.mem_singleton_self l)

theorem Instant.lt_of_le_of_lt {a b c : Instant} (h : a ≤ b) (h' : b < c) : a < c := by
  change ¬ (b.second < a.second ∨ (b.second = a.second ∧ b.nano < a.nano)) at h
  change b.second < c.second ∨ (b.second = c.second ∧ b.nano < c.nano) at h'
  show a.second < c.second ∨ (a.second = c.second ∧ a.nano < c.nano)
  omega

/-! ## Since -/

section Since

variable {α : Type} {here here' on on' : α → Prop} {es : List α} {e : α}

/-- Something in the list is so `here`, and everything after it is so `on`. -/
def Since (here on : α → Prop) (es : List α) : Prop :=
  ∃ before x later, es = before ++ x :: later ∧ here x ∧ ∀ y ∈ later, on y

theorem not_since_nil : ¬ Since here on [] := by
  rintro ⟨before, x, later, h, -, -⟩
  simp at h

theorem since_concat : Since here on (es ++ [e]) ↔ here e ∨ (on e ∧ Since here on es) := by
  constructor
  · rintro ⟨before, x, later, h, hx, hlater⟩
    rcases List.eq_nil_or_concat later with rfl | ⟨later', l, hl⟩
    · left
      obtain ⟨-, hx'⟩ := List.append_inj' h rfl
      cases hx'
      exact hx
    · right
      rw [List.concat_eq_append] at hl
      subst hl
      rw [← List.cons_append, ← List.append_assoc] at h
      obtain ⟨hes, hl⟩ := List.append_inj' h rfl
      cases hl
      exact ⟨hlater e (by simp), before, x, later', hes, hx, fun y hy => hlater y (List.mem_append_left _ hy)⟩
  · rintro (he | ⟨he, before, x, later, rfl, hx, hlater⟩)
    · exact ⟨es, e, [], rfl, he, nofun⟩
    · refine ⟨before, x, later ++ [e], by simp, hx, fun y hy => ?_⟩
      rcases List.mem_append.1 hy with hy | hy
      · exact hlater y hy
      · rw [List.mem_singleton.1 hy]; exact he

theorem Since.mono (h : Since here on es) (hhere : ∀ x ∈ es, here x → here' x) (hon : ∀ x ∈ es, on x → on' x) :
    Since here' on' es := by
  obtain ⟨before, x, later, rfl, hx, hlater⟩ := h
  exact ⟨before, x, later, rfl, hhere x (by simp) hx, fun y hy => hon y (by simp [hy]) (hlater y hy)⟩

/-- What is so since the last event of a kind is told from the events of this kind. -/
theorem since_filter {kind : α → Prop} [DecidablePred kind] (hhere : ∀ x, here x → kind x) :
    Since here (fun x => ¬ kind x) es ↔ Since here (fun x => ¬ kind x) (es.filter kind) := by
  induction es using List.reverseRecOn with
  | nil => rfl
  | append_singleton es e ih =>
    rw [List.filter_append, since_concat]
    by_cases he : kind e
    · rw [List.filter_cons_of_pos (by simpa using he), List.filter_nil, since_concat]
      simp [he]
    · have elsewhere : ¬ here e := fun h => he (hhere e h)
      rw [List.filter_cons_of_neg (by simpa using he), List.filter_nil, List.append_nil, ← ih]
      simp [he, elsewhere]

end Since

/-! ## One request -/

namespace TimedCache

variable {c : TimedCache} {x y : TimedEntry} {k v : String} {t : Instant}

/-- the cache after a request -/
def serve (c : TimedCache) (e : CacheEvent) : TimedCache :=
  match e.request with
  | .set key value ttl => (setFor key value ttl e.time c).2
  | .get key => (get key e.time c).2
  | .delete key => (delete key c).2

/-- no two entries have one key -/
def Distinct (c : TimedCache) : Prop := (c.entries.map (·.key)).Nodup

theorem Distinct.eq (h : c.Distinct) (hx : x ∈ c.entries) (hy : y ∈ c.entries) (hkey : x.key = y.key) : x = y :=
  List.inj_on_of_nodup_map h hx hy hkey

theorem mem_erase_iff : x ∈ (c.erase k).entries ↔ x ∈ c.entries ∧ x.key ≠ k := by
  simp [erase]

theorem Distinct.erase (h : c.Distinct) : (c.erase k).Distinct :=
  h.sublist (List.filter_sublist.map _)

theorem entry?_eq_some (h : c.Distinct) : c.entry? k = some x ↔ x ∈ c.entries ∧ x.key = k := by
  constructor
  · intro hx
    exact ⟨List.mem_of_find?_eq_some hx, by simpa using List.find?_some hx⟩
  · rintro ⟨hx, hk⟩
    obtain ⟨y, hy⟩ : ∃ y, c.entry? k = some y := by
      rw [← Option.isSome_iff_exists]
      exact List.find?_isSome.2 ⟨x, hx, by simpa using hk⟩
    have hyk : y.key = k := by simpa using List.find?_some hy
    rw [hy, h.eq (List.mem_of_find?_eq_some hy) hx (hyk.trans hk.symm)]

theorem get_answers (h : c.Distinct) (k : String) (t : Instant) :
    ∃ answer, (get k t c).1 = .ok answer ∧
      ∀ v, answer = some v ↔ ∃ x ∈ c.entries, x.key = k ∧ x.value = v ∧ t < x.expiresAt := by
  have found : ∀ {x}, c.entry? k = some x ↔ x ∈ c.entries ∧ x.key = k := entry?_eq_some h
  rcases hx : c.entry? k with _ | x
  · refine ⟨none, by rw [get, hx], fun v => ⟨nofun, ?_⟩⟩
    rintro ⟨y, hy, hyk, -, -⟩
    rw [found.2 ⟨hy, hyk⟩] at hx
    cases hx
  · obtain ⟨hmem, hkey⟩ := found.1 hx
    by_cases due : t < x.expiresAt
    · refine ⟨some x.value, by simp only [get, hx, if_pos due], fun v => ⟨fun hv => ?_, ?_⟩⟩
      · exact ⟨x, hmem, hkey, Option.some.inj hv, due⟩
      · rintro ⟨y, hy, hyk, rfl, -⟩
        rw [h.eq hmem hy (hkey.trans hyk.symm)]
    · refine ⟨none, by simp only [get, hx, if_neg due], fun v => ⟨nofun, ?_⟩⟩
      rintro ⟨y, hy, hyk, -, soon⟩
      rw [← h.eq hmem hy (hkey.trans hyk.symm)] at soon
      exact absurd soon due

/-- A reader drops the entry under his key if its time has come, and nothing else. -/
theorem mem_get (h : c.Distinct) :
    x ∈ (get k t c).2.entries ↔ x ∈ c.entries ∧ ¬ (x.key = k ∧ x.expiresAt ≤ t) := by
  have found : ∀ {x}, c.entry? k = some x ↔ x ∈ c.entries ∧ x.key = k := entry?_eq_some h
  unfold get
  split
  · rename_i y hy
    obtain ⟨hmem, hkey⟩ := found.1 hy
    have same : x ∈ c.entries → x.key = k → x = y := fun hx hxk => h.eq hx hmem (hxk.trans hkey.symm)
    split
    · rename_i due
      refine ⟨fun hx => ⟨hx, ?_⟩, And.left⟩
      rintro ⟨hxk, ended⟩
      rw [same hx hxk] at ended
      exact ended due
    · rename_i late
      rw [mem_erase_iff]
      refine and_congr_right fun hx => not_congr ⟨fun hxk => ⟨hxk, ?_⟩, And.left⟩
      rw [same hx hxk]
      exact late
  · rename_i none
    refine ⟨fun hx => ⟨hx, ?_⟩, And.left⟩
    rintro ⟨hxk, -⟩
    rw [found.2 ⟨hx, hxk⟩] at none
    cases none

theorem get_distinct (h : c.Distinct) : (get k t c).2.Distinct := by
  unfold get
  split
  · split
    · exact h
    · exact h.erase
  · exact h

theorem setFor_counted {ttl : Duration} (h : (t.plus ttl).second ≤ lastSecond) :
    setFor k v ttl t c = (.ok (), ⟨⟨k, v, t.plus ttl⟩ :: (c.erase k).entries⟩) := by
  rw [setFor]
  exact if_neg (Int.not_lt.2 h)

/-! ## What a history leaves -/

/-- an entry that was set and has not ended since -/
def Kept (x : TimedEntry) : List CacheEvent → Prop := Since (CacheEvent.Sets x) (fun e => ¬ e.Ends x)

/-- the entries are those that a history has kept, with a key of its own each -/
structure Keeps (c : TimedCache) (es : List CacheEvent) : Prop where
  distinct : c.Distinct
  entries : ∀ x, x ∈ c.entries ↔ Kept x es

theorem keeps_nil : Keeps empty [] := by
  refine ⟨List.nodup_nil, fun x => ⟨nofun, fun h => ?_⟩⟩
  exact absurd h not_since_nil

theorem serve_keeps {es : List CacheEvent} {e : CacheEvent} (h : Keeps c es) (he : e.Countable) :
    Keeps (c.serve e) (es ++ [e]) := by
  have kept : ∀ x, Kept x (es ++ [e]) ↔ e.Sets x ∨ (¬ e.Ends x ∧ x ∈ c.entries) := fun x => by
    rw [h.entries]
    exact since_concat
  obtain ⟨t, request⟩ := e
  cases request with
  | set k v ttl =>
    have served : c.serve ⟨t, .set k v ttl⟩ = ⟨⟨k, v, t.plus ttl⟩ :: (c.erase k).entries⟩ :=
      congrArg Prod.snd (setFor_counted he)
    rw [served]
    constructor
    · refine List.nodup_cons.2 ⟨fun hk => ?_, h.distinct.erase⟩
      obtain ⟨y, hy, hyk⟩ := List.mem_map.1 hk
      exact (mem_erase_iff.1 hy).2 hyk
    · intro x
      have sets : CacheEvent.Sets x ⟨t, .set k v ttl⟩ ↔ x = ⟨k, v, t.plus ttl⟩ := by
        constructor
        · rintro ⟨ttl', hset, hdue⟩
          obtain ⟨key, value, expiresAt⟩ := x
          cases hset
          exact congrArg (TimedEntry.mk _ _) hdue
        · rintro rfl
          exact ⟨ttl, rfl, rfl⟩
      have ends : CacheEvent.Ends x ⟨t, .set k v ttl⟩ ↔ x.key = k := by
        simp [CacheEvent.Ends, CacheRequest.Writes, eq_comm]
      rw [kept, sets, ends, List.mem_cons, mem_erase_iff, and_comm (a := x ∈ _)]
  | get k =>
    refine ⟨get_distinct h.distinct, fun x => ?_⟩
    have sets : ¬ CacheEvent.Sets x ⟨t, .get k⟩ := by
      rintro ⟨ttl, hset, -⟩
      cases hset
    have ends : CacheEvent.Ends x ⟨t, .get k⟩ ↔ x.key = k ∧ x.expiresAt ≤ t := by
      simp [CacheEvent.Ends, CacheRequest.Writes, eq_comm]
    rw [kept, ends]
    exact (mem_get h.distinct).trans (and_comm.trans (or_iff_right sets).symm)
  | delete k =>
    refine ⟨h.distinct.erase, fun x => ?_⟩
    have sets : ¬ CacheEvent.Sets x ⟨t, .delete k⟩ := by
      rintro ⟨ttl, hset, -⟩
      cases hset
    have ends : CacheEvent.Ends x ⟨t, .delete k⟩ ↔ x.key = k := by
      simp [CacheEvent.Ends, CacheRequest.Writes, eq_comm]
    rw [kept, ends]
    exact mem_erase_iff.trans (and_comm.trans (or_iff_right sets).symm)

/-- the cache after a history, from the empty one -/
def after (es : List CacheEvent) : TimedCache := es.foldl serve empty

theorem after_concat (es : List CacheEvent) (e : CacheEvent) : after (es ++ [e]) = (after es).serve e := by
  simp [after]

theorem after_keeps {es : List CacheEvent} (h : ∀ e ∈ es, e.Countable) : Keeps (after es) es := by
  induction es using List.reverseRecOn with
  | nil => exact keeps_nil
  | append_singleton es e ih =>
    rw [after_concat]
    refine serve_keeps (ih fun f hf => h f (List.mem_append_left _ hf)) (h e ?_)
    exact List.mem_append_right _ (List.mem_singleton_self e)

/-! ## What can be read -/

/-- the last write of a key set a text for a span at an instant -/
def LastSet (k v : String) (s : Instant) (ttl : Duration) : List CacheEvent → Prop :=
  Since (· = ⟨s, .set k v ttl⟩) (fun e => ¬ e.request.Writes k)

/-- the last set of a key was followed neither by a delete of it nor by a get of it when its time had come -/
def KeyKept (k : String) (es : List CacheEvent) : Prop :=
  ∃ v s ttl, Since (· = ⟨s, .set k v ttl⟩)
    (fun e => ¬ e.request.Writes k ∧ (e.request = .get k → e.time < s.plus ttl)) es

/-- Before its time has come nobody has ended an entry but by writing its key. -/
theorem kept_due_iff {es : List CacheEvent} (inTime : ∀ e ∈ es, e.time ≤ t) :
    (∃ x, Kept x es ∧ x.key = k ∧ x.value = v ∧ t < x.expiresAt) ↔ ∃ s ttl, LastSet k v s ttl es ∧ t < s.plus ttl := by
  constructor
  · rintro ⟨x, ⟨before, ⟨s, request⟩, later, rfl, ⟨ttl, hset, hends⟩, hlater⟩, rfl, rfl, due⟩
    cases hset
    refine ⟨s, ttl, ⟨before, _, later, rfl, rfl, fun e he => ?_⟩, hends ▸ due⟩
    exact fun writes => hlater e he (.inl writes)
  · rintro ⟨s, ttl, last, due⟩
    refine ⟨⟨k, v, s.plus ttl⟩, last.mono (fun e _ he => ?_) (fun e he quiet => ?_), rfl, rfl, due⟩
    · rw [he]
      exact ⟨ttl, rfl, rfl⟩
    · rintro (writes | ⟨-, ended⟩)
      · exact quiet writes
      · exact ended (Instant.lt_of_le_of_lt (inTime e he) due)

theorem get_iff {es : List CacheEvent} (h : Timely (es ++ [⟨t, .get k⟩])) :
    ∃ answer, (get k t (after es)).1 = .ok answer ∧
      ∀ v, answer = some v ↔ ∃ s ttl, LastSet k v s ttl es ∧ t < s.plus ttl := by
  have keeps : Keeps (after es) es := after_keeps h.of_append.countable
  obtain ⟨answer, hanswer, hv⟩ := get_answers keeps.distinct k t
  refine ⟨answer, hanswer, fun v => (hv v).trans ?_⟩
  rw [← kept_due_iff fun e he => h.le_last he]
  exact exists_congr fun x => and_congr_left' (keeps.entries x)

/-- Two histories with the same writes of a key answer it alike. -/
theorem get_congr {es es' : List CacheEvent} (h : Timely (es ++ [⟨t, .get k⟩])) (h' : Timely (es' ++ [⟨t, .get k⟩]))
    (same : es.filter (·.request.Writes k) = es'.filter (·.request.Writes k)) :
    (get k t (after es)).1 = (get k t (after es')).1 := by
  obtain ⟨a, ha, hiff⟩ := get_iff h
  obtain ⟨a', ha', hiff'⟩ := get_iff h'
  have last : ∀ v s ttl, LastSet k v s ttl es ↔ LastSet k v s ttl es' := fun v s ttl => by
    have writes : ∀ e : CacheEvent, e = ⟨s, .set k v ttl⟩ → e.request.Writes k := by
      rintro _ rfl
      rfl
    rw [LastSet, since_filter writes, same, ← since_filter writes]
  have agree : ∀ v, a = some v ↔ a' = some v := fun v => by
    rw [hiff, hiff']
    simp only [last]
  rw [ha, ha', Option.ext agree]

theorem mem_keys_iff {es : List CacheEvent} (h : Keeps c es) : k ∈ c.entries.map (·.key) ↔ KeyKept k es := by
  rw [List.mem_map]
  constructor
  · rintro ⟨x, hx, rfl⟩
    obtain ⟨before, ⟨s, request⟩, later, rfl, ⟨ttl, hset, hends⟩, hlater⟩ := (h.entries x).1 hx
    cases hset
    refine ⟨x.value, s, ttl, before, _, later, rfl, rfl, fun e he => ⟨?_, fun reads => ?_⟩⟩
    · exact fun writes => hlater e he (.inl writes)
    · by_contra late
      exact hlater e he (.inr ⟨reads, hends ▸ late⟩)
  · rintro ⟨v, s, ttl, since⟩
    refine ⟨⟨k, v, s.plus ttl⟩, (h.entries _).2 (since.mono (fun e _ he => ?_) fun e _ quiet => ?_), rfl⟩
    · rw [he]
      exact ⟨ttl, rfl, rfl⟩
    · rintro (writes | ⟨reads, ended⟩)
      · exact quiet.1 writes
      · exact ended (quiet.2 reads)

theorem size_eq {es : List CacheEvent} (h : Keeps c es) : (c.size : ℕ∞) = Set.encard {k | KeyKept k es} := by
  have keys : {k | KeyKept k es} = ((c.entries.map (·.key)).toFinset : Set String) := by
    ext k
    rw [Set.mem_ofPred_eq, ← mem_keys_iff h]
    simp
  rw [keys, Set.encard_coe_eq_coe_finsetCard, List.toFinset_card_of_nodup h.distinct, List.length_map, size]

/-- **The cache in memory is a timed map.** In a history whose instants do not go back and whose ends can be counted, a
get answers a text just if the last write of its key set this text and its time has not come, and answers the same
after any other history with these writes of the key. The size of the cache is the number of the keys whose last set
was followed neither by a delete nor by a get when its time had come, and each key that can be read is one of them. -/
theorem timed_map {es : List CacheEvent} (h : Timely es) :
    (∀ before t k later, es = before ++ ⟨t, .get k⟩ :: later →
      ∃ answer, (get k t (after before)).1 = .ok answer ∧
        (∀ v, answer = some v ↔ ∃ s ttl, LastSet k v s ttl before ∧ t < s.plus ttl) ∧
        ∀ before', Timely (before' ++ [⟨t, .get k⟩]) →
          before'.filter (·.request.Writes k) = before.filter (·.request.Writes k) →
          (get k t (after before')).1 = .ok answer) ∧
      ((after es).size : ℕ∞) = Set.encard {k | KeyKept k es} ∧
      ∀ t k v, (get k t (after es)).1 = .ok (some v) → KeyKept k es := by
  have keeps : Keeps (after es) es := after_keeps h.countable
  refine ⟨fun before t k later hes => ?_, size_eq keeps, fun t k v hv => ?_⟩
  · have timely : Timely (before ++ [⟨t, .get k⟩]) := by
      rw [hes, ← List.singleton_append, ← List.append_assoc] at h
      exact h.of_append
    obtain ⟨answer, hanswer, hiff⟩ := get_iff timely
    exact ⟨answer, hanswer, hiff, fun before' h' same => (get_congr h' timely same).trans hanswer⟩
  · obtain ⟨answer, hanswer, hiff⟩ := get_answers keeps.distinct k t
    obtain ⟨x, hx, hk, -, -⟩ := (hiff v).1 (Except.ok.inj (hanswer.symm.trans hv))
    exact (mem_keys_iff keeps).1 (List.mem_map.2 ⟨x, hx, hk⟩)

/-- one key for five seconds, and one for half a second that is read when this is over -/
def twoKeys : List CacheEvent :=
  [⟨⟨0, 0⟩, .set "1" "a" (.ofSeconds 5)⟩, ⟨⟨0, 0⟩, .set "2" "b" ⟨0, ⟨500000000, by decide⟩⟩⟩,
    ⟨⟨0, 500000000⟩, .get "2"⟩, ⟨⟨1, 0⟩, .get "1"⟩]

theorem timed_map_of_two_keys :
    Timely twoKeys ∧
      (get "2" ⟨0, 500000000⟩ (after (twoKeys.take 2))).1 = .ok none ∧
      (¬ ∃ s ttl, LastSet "2" "b" s ttl (twoKeys.take 2) ∧ ⟨0, 500000000⟩ < s.plus ttl) ∧
      (get "1" ⟨1, 0⟩ (after (twoKeys.take 3))).1 = .ok (some "a") ∧
      (∃ s ttl, LastSet "1" "a" s ttl (twoKeys.take 3) ∧ ⟨1, 0⟩ < s.plus ttl) ∧
      Set.encard {k | KeyKept k twoKeys} = 1 ∧ KeyKept "1" twoKeys := by
  have timely : Timely twoKeys := ⟨by decide +kernel, by decide +kernel⟩
  have ended : (get "2" ⟨0, 500000000⟩ (after (twoKeys.take 2))).1 = .ok none := by decide +kernel
  have due : (get "1" ⟨1, 0⟩ (after (twoKeys.take 3))).1 = .ok (some "a") := by decide +kernel
  have dueLater : (get "1" ⟨1, 0⟩ (after twoKeys)).1 = .ok (some "a") := by decide +kernel
  have single : (after twoKeys).size = 1 := by decide +kernel
  obtain ⟨answers, size, live⟩ := timed_map timely
  obtain ⟨a, ha, ended_iff, -⟩ := answers (twoKeys.take 2) _ "2" _ rfl
  obtain ⟨b, hb, due_iff, -⟩ := answers (twoKeys.take 3) _ "1" _ rfl
  refine ⟨timely, ended, fun last => ?_, due, ?_, ?_, live _ _ _ dueLater⟩
  · have := (ended_iff "b").2 last
    rw [ended] at ha
    cases ha
    cases this
  · rw [due] at hb
    cases hb
    exact (due_iff "a").1 rfl
  · rw [← size, single]
    rfl

end TimedCache
end PickupPoint
