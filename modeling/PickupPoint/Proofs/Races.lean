/-
Looks and changes that take turns.

A look that has read the store before a change may put what it read into the cache after the change has dropped the
history there, and the next look will find it (`late_look_hides_change`). Nothing else hides a change: if no look does
so (`PutLate`), every look that begins after the call that made the change has ended shows it (`change_shown`).

The calls take their steps in any order, and time may pass in between (`Beat`). No faults are set.
-/
import Mathlib.Data.List.Induction
import PickupPoint.Proofs.Calls

namespace PickupPoint

open Act LawfulCache

variable {κ : Type} [HistoryCache κ]

/-! ## Beats -/

inductive Beat where
  | enter (c : Call)
  | step (i : Nat)
  /-- time passes -/
  | wait

namespace Pool

def beat (p : Pool Memory κ) : Beat → Pool Memory κ
  | .enter c => p.step (.enter c)
  | .step i => p.step (.step i)
  | .wait => p.step (.shift { p.site with clock := p.site.clock.advance })

def play (p : Pool Memory κ) (beats : List Beat) : Pool Memory κ := beats.foldl beat p

theorem play_append (p : Pool Memory κ) (beats more : List Beat) : p.play (beats ++ more) = (p.play beats).play more :=
  List.foldl_append ..

theorem play_concat (p : Pool Memory κ) (beats : List Beat) (b : Beat) : p.play (beats ++ [b]) = (p.play beats).beat b :=
  play_append p beats [b]

theorem beat_sound {p : Pool Memory κ} (h : p.Sound) (b : Beat) : (p.beat b).Sound := by
  cases b <;> exact (step_sound h _).1

theorem beat_step {p : Pool Memory κ} {i : Nat} {q : Progress} (h : p.calls[i]? = some q) :
    p.beat (.step i) = ⟨(q.step p.site).2, p.calls.set i (q.step p.site).1⟩ := by
  show p.step (.step i) = _
  simp only [Pool.step, h]

theorem beat_step_none {p : Pool Memory κ} {i : Nat} (h : p.calls[i]? = none) : p.beat (.step i) = p := by
  show p.step (.step i) = _
  simp only [Pool.step, h]

theorem beat_own {p : Pool Memory κ} {i : Nat} {q : Progress} (h : p.calls[i]? = some q) :
    (p.beat (.step i)).calls[i]? = some (q.step p.site).1 := by
  rw [beat_step h]
  exact List.getElem?_set_self (List.getElem?_eq_some_iff.1 h).1

/-- What other calls do leaves a call where it stands. -/
theorem beat_other {p : Pool Memory κ} {i : Nat} {q : Progress} (h : p.calls[i]? = some q) {b : Beat}
    (other : b ≠ .step i) : (p.beat b).calls[i]? = some q := by
  have there : i < p.calls.length := (List.getElem?_eq_some_iff.1 h).1
  cases b with
  | enter c => exact (List.getElem?_append_left there).trans h
  | wait => exact h
  | step j =>
    have apart : j ≠ i := fun same => other (congrArg Beat.step same)
    rcases hj : p.calls[j]? with _ | x
    · rw [beat_step_none hj]; exact h
    · rw [beat_step hj]
      exact (List.getElem?_set_ne apart).trans h

/-- What has ended stays so. -/
theorem beat_ended {p : Pool Memory κ} {i : Nat} {r : Except Halt Reply} (h : p.calls[i]? = some (.ended r)) (b : Beat) :
    (p.beat b).calls[i]? = some (.ended r) := by
  by_cases own : b = .step i
  · subst own
    exact beat_own h
  · exact beat_other h own

theorem play_ended {p : Pool Memory κ} {i : Nat} {r : Except Halt Reply} (h : p.calls[i]? = some (.ended r))
    (beats : List Beat) : (p.play beats).calls[i]? = some (.ended r) := by
  induction beats generalizing p with
  | nil => exact h
  | cons b beats ih => exact ih (beat_ended h b)

end Pool

/-! ## Steps where no faults are set -/

variable [LawfulCache κ]

/-- what a step comes to where no faults are set -/
structure FairStep (p : Progress) (s : Site Memory κ) (p' : Progress) (s' : Site Memory κ) : Prop where
  fair : Fair s'
  /-- what is written is still to be dropped from the cache -/
  written : ∀ entry ∈ s'.store.history, entry ∉ s.store.history → entry.orderId ∈ p'.drops
  holds : ∀ e, Holds s'.cache e → Holds s.cache e ∨ ∃ id h, p = .keeping id h ∧ e = keptEntry id h s
  keeps : ∀ id h, p' = .keeping id h → h = s.store.orderHistory id
  dropped : ∀ id rest, p.drops = id :: rest → p'.drops = rest ∧ ∀ e, Holds s'.cache e → e.key ≠ cacheKey id

theorem not_keeping {p : Progress} (h : p.reads? = none) (id : Nat) (history : List HistoryEntry) :
    p ≠ .keeping id history := by
  rintro rfl
  cases h

/-- a step that leaves the store as it is, and has nothing to drop -/
theorem FairStep.of_same {p p' : Progress} {s s' : Site Memory κ} (fair : Fair s') (store : s'.store = s.store)
    (holds : ∀ e, Holds s'.cache e → Holds s.cache e ∨ ∃ id h, p = .keeping id h ∧ e = keptEntry id h s)
    (keeps : ∀ id h, p' = .keeping id h → h = s.store.orderHistory id) (drops : p.drops = []) : FairStep p s p' s' :=
  ⟨fair, fun entry he new => absurd (store ▸ he) new, holds, keeps, fun id rest hd => by rw [drops] at hd; cases hd⟩

theorem looking_step {p : Progress} {id : Nat} (reads : p.reads? = some id) {s : Site Memory κ} (fair : Fair s) :
    FairStep p s (p.step s).1 (p.step s).2 := by
  cases p with
  | recalling id =>
    obtain ⟨fs, c, r, hc, holds, recalled, sure⟩ := cachedHistory_run id s
    obtain ⟨hfs, serves, -⟩ := sure fair
    rw [Progress.recalling_step, hc]
    cases recalled <;> exact .of_same ⟨hfs, serves⟩ rfl (fun e he => .inl (holds e he)) nofun rfl
  | reading id =>
    obtain ⟨fs, m, r, hc, -, sure⟩ := recordedHistory_run id s
    obtain ⟨hfs, rfl⟩ := sure fair.faultless
    rw [Progress.reading_step, hc, known]
    split_ifs with none
    · exact .of_same ⟨hfs, fair.serves⟩ rfl (fun e he => .inl he) nofun rfl
    · exact .of_same ⟨hfs, fair.serves⟩ rfl (fun e he => .inl he) (fun id h hk => by cases hk; rfl) rfl
  | keeping id h =>
    obtain ⟨fs, c, r, hc, holds, sure⟩ := keepHistory_run id h s
    obtain ⟨hfs, serves, -⟩ := sure fair
    rw [Progress.keeping_step, hc]
    have held : ∀ e, Holds c e → Holds s.cache e ∨
        ∃ id' h', Progress.keeping id h = .keeping id' h' ∧ e = keptEntry id' h' s :=
      fun e he => (holds e he).imp_right fun kept => ⟨id, h, rfl, kept⟩
    cases r <;> exact .of_same ⟨hfs, serves⟩ rfl held nofun rfl
  | checking | storing | dropping | importing | reclaiming | timing | processing | clearing | asking | ended =>
    cases reads

theorem fair_step {p : Progress} (sound : p.Sound) {s : Site Memory κ} (fair : Fair s) :
    FairStep p s (p.step s).1 (p.step s).2 := by
  rcases hd : p.drops with _ | ⟨id, rest⟩
  · rcases hr : p.reads? with _ | id
    · have worked := working_step sound hd hr s
      obtain ⟨cs, changed, may⟩ := worked.changed
      refine ⟨fair.kept worked.kept, fun entry he new => ?_, fun e he => .inl (worked.kept.cache ▸ he),
        fun id h hk => absurd hk (not_keeping worked.reads id h), fun id rest h => by rw [hd] at h; cases h⟩
      -- the history of an order that has nothing to drop has not changed, and so the entry is not new
      by_contra pending
      have same : (p.step s).2.store.orderHistory entry.orderId = s.store.orderHistory entry.orderId :=
        changed.history_eq fun c hc hid => pending (hid ▸ (may c hc).1)
      have here : entry ∈ (p.step s).2.store.orderHistory entry.orderId := List.mem_filter.2 ⟨he, by simp⟩
      exact new (List.mem_filter.1 (same ▸ here)).1
    · exact looking_step hr fair
  · have dropped := dropping_step hd s
    obtain ⟨left, fair', gone⟩ := dropped.fair fair
    refine ⟨fair', fun entry he new => absurd (dropped.store ▸ he) new, fun e he => .inl (dropped.holds e he),
      fun id h hk => absurd hk (not_keeping dropped.reads id h), fun id' rest' h => ?_⟩
    rw [hd] at h
    cases h
    exact ⟨left, gone⟩

/-! ## Pools where no faults are set -/

/-- what holds at every beat from where `s₀` began -/
structure Orderly (s₀ : Site Memory κ) (p : Pool Memory κ) : Prop where
  sound : p.Sound
  fair : Fair p.site
  readings : p.site.clock.readings = s₀.clock.readings
  cacheTtl : p.site.cacheTtl = s₀.cacheTtl
  stored : ∀ e ∈ p.site.store.history, e.createdAt.Proper
  /-- what a look has read was stored -/
  read : ∀ id h, .keeping id h ∈ p.calls → ∀ e ∈ h, e.createdAt.Proper

theorem Fresh.orderly {none : κ} {s : Site Memory κ} (fresh : Fresh none s) (serves : Serves none) :
    Orderly s ⟨s, []⟩ where
  sound _ hq := absurd hq List.not_mem_nil
  fair := ⟨fresh.faultless, fresh.cache ▸ serves⟩
  readings := rfl
  cacheTtl := rfl
  stored e he := by
    have none : e ∈ s.store.history := he
    rw [fresh.store] at none
    exact absurd none List.not_mem_nil
  read _ _ hq := absurd hq List.not_mem_nil

theorem Orderly.beat {s₀ : Site Memory κ} {p : Pool Memory κ} (h : Orderly s₀ p)
    (proper : ∀ n, (s₀.clock.readings n).Proper) (b : Beat) : Orderly s₀ (p.beat b) := by
  have sound := Pool.beat_sound h.sound b
  cases b with
  | enter c =>
    refine { h with sound, read := fun id history hq => ?_ }
    rcases List.mem_append.1 hq with hq | hq
    · exact h.read id history hq
    · have started := List.mem_singleton.1 hq
      cases c <;> cases started
  | wait => exact { h with sound, fair := ⟨h.fair.faultless, h.fair.serves⟩ }
  | step j =>
    rcases hj : p.calls[j]? with _ | q
    · rw [Pool.beat_step_none hj]; exact h
    rw [Pool.beat_step hj] at sound ⊢
    have hq := h.sound q (List.mem_of_getElem? hj)
    have stepped := fair_step hq h.fair
    obtain ⟨-, _, dated⟩ := step_obeys Dated hq p.site
    refine ⟨sound, stepped.fair, dated.readings.trans h.readings, dated.cacheTtl.trans h.cacheTtl, fun e he => ?_,
      fun id history hk => ?_⟩
    · rcases dated.entries e he with old | ⟨n, hn⟩
      · exact h.stored e old
      · rw [hn, h.readings]; exact proper n
    · rcases List.mem_or_eq_of_mem_set hk with old | new
      · exact h.read id history old
      · rw [stepped.keeps id history new.symm]
        exact fun e he => h.stored e (List.mem_filter.1 he).1

theorem Orderly.play {s₀ : Site Memory κ} {p : Pool Memory κ} (h : Orderly s₀ p)
    (proper : ∀ n, (s₀.clock.readings n).Proper) (beats : List Beat) : Orderly s₀ (p.play beats) := by
  induction beats generalizing p with
  | nil => exact h
  | cons b beats ih => exact ih (h.beat proper b)

/-! ## What becomes of a change -/

section Change

/-- Call `j` is about to put a history into the cache that it read without the entry, although call `i`, which wrote the
entry, has dropped the history there. -/
structure Late (i : Nat) (entry : HistoryEntry) (p : Pool Memory κ) (j : Nat) (h : List HistoryEntry) : Prop where
  reads : p.calls[j]? = some (.keeping entry.orderId h)
  lacks : entry ∉ h
  dropped : ∀ q, p.calls[i]? = some q → entry.orderId ∉ q.drops

/-- what such a call has put into the cache -/
def PutLate (i : Nat) (entry : HistoryEntry) (p : Pool Memory κ) (beats : List Beat) (h : List HistoryEntry)
    (e : TimedEntry) : Prop :=
  ∃ past j, past ++ [.step j] <+: beats ∧ Late i entry (p.play past) j h ∧
    e = keptEntry entry.orderId h (p.play past).site

variable {s₀ : Site Memory κ} {p : Pool Memory κ} {i look : Nat} {entry : HistoryEntry} {beats : List Beat}

theorem PutLate.concat {h : List HistoryEntry} {e : TimedEntry} (late : PutLate i entry p beats h e) (b : Beat) :
    PutLate i entry p (beats ++ [b]) h e := by
  obtain ⟨past, j, hpre, rest⟩ := late
  exact ⟨past, j, hpre.trans (List.prefix_append beats [b]), rest⟩

/-- The entry that call `i` wrote is in every history of its order that the cache holds, if it was not put there late
and unless the call has still to drop it. -/
structure Shown (i : Nat) (entry : HistoryEntry) (p : Pool Memory κ) (beats : List Beat) : Prop where
  there : i < (p.play beats).calls.length
  written : entry ∈ (p.play beats).site.store.orderHistory entry.orderId
  shown : (∀ q, (p.play beats).calls[i]? = some q → entry.orderId ∉ q.drops) →
    ∀ e, Holds (p.play beats).site.cache e → e.key = cacheKey entry.orderId →
      ∀ h, historyOfText? e.value = some h → entry ∈ h ∨ PutLate i entry p beats h e

/-- what a step of call `i` writes -/
theorem shown_of_written (h : Orderly s₀ p) (written : entry ∈ (p.beat (.step i)).site.store.history)
    (new : entry ∉ p.site.store.history) : Shown i entry (p.beat (.step i)) [] := by
  rcases hi : p.calls[i]? with _ | q
  · rw [Pool.beat_step_none hi] at written; exact absurd written new
  rw [Pool.beat_step hi] at written ⊢
  have there : i < p.calls.length := (List.getElem?_eq_some_iff.1 hi).1
  have pending := (fair_step (h.sound q (List.mem_of_getElem? hi)) h.fair).written entry written new
  refine ⟨List.length_set.symm ▸ there, List.mem_filter.2 ⟨written, by simp⟩, fun dropped => ?_⟩
  exact absurd pending (dropped _ (List.getElem?_set_self there))

theorem Shown.concat (h : Shown i entry p beats) (orderly : Orderly s₀ (p.play beats)) (b : Beat) :
    Shown i entry p (beats ++ [b]) := by
  obtain ⟨there, written, shown⟩ := h
  have kept : ∀ {e history}, entry ∈ history ∨ PutLate i entry p beats history e →
      entry ∈ history ∨ PutLate i entry p (beats ++ [b]) history e := fun h => h.imp_right (·.concat b)
  cases b with
  | wait =>
    constructor <;> rw [Pool.play_concat]
    · exact there
    · exact written
    · exact fun dropped e he key history read => kept (shown dropped e he key history read)
  | enter c =>
    constructor <;> rw [Pool.play_concat]
    · show i < ((p.play beats).calls ++ [Progress.start c]).length
      rw [List.length_append]
      exact Nat.lt_add_right 1 there
    · exact written
    · refine fun dropped e he key history read => kept (shown (fun q hq => ?_) e he key history read)
      exact dropped q ((List.getElem?_append_left there).trans hq)
  | step j =>
    rcases hj : (p.play beats).calls[j]? with _ | q
    · constructor <;> rw [Pool.play_concat, Pool.beat_step_none hj]
      · exact there
      · exact written
      · exact fun dropped e he key history read => kept (shown dropped e he key history read)
    have hq := orderly.sound q (List.mem_of_getElem? hj)
    have stepped := fair_step hq orderly.fair
    obtain ⟨-, cs, changed⟩ := step_grows hq (p.play beats).site
    constructor <;> rw [Pool.play_concat, Pool.beat_step hj]
    · exact List.length_set.symm ▸ there
    · exact (changed.history_prefix _).subset written
    intro dropped e he key history read
    -- if call `i` had it to drop before the step, the step has dropped it
    have clear : ∀ x, (p.play beats).calls[i]? = some x → entry.orderId ∉ x.drops := by
      intro x hx pending
      by_cases same : j = i
      · subst same
        obtain rfl : q = x := Option.some.inj (hj.symm.trans hx)
        rcases hd : q.drops with _ | ⟨id, rest⟩ <;> rw [hd] at pending
        · exact absurd pending List.not_mem_nil
        obtain ⟨left, gone⟩ := stepped.dropped id rest hd
        have away := dropped _ (List.getElem?_set_self there)
        rw [left] at away
        rcases List.mem_cons.1 pending with rfl | pending
        · exact gone e he key
        · exact away pending
      · exact dropped x ((List.getElem?_set_ne same).trans hx) pending
    rcases stepped.holds e he with old | ⟨id, put, rfl, rfl⟩
    · exact kept (shown clear e old key history read)
    · obtain rfl : id = entry.orderId := cacheKey_injective key
      obtain rfl := eq_of_historyText (orderly.read _ _ (List.mem_of_getElem? hj)) read
      by_cases mem : entry ∈ history
      · exact .inl mem
      · exact .inr ⟨beats, j, List.prefix_refl _, ⟨hj, mem, clear⟩, rfl⟩

theorem Shown.play (h : Shown i entry p []) (orderly : Orderly s₀ p) (proper : ∀ n, (s₀.clock.readings n).Proper)
    (beats : List Beat) : Shown i entry p beats := by
  induction beats using List.reverseRecOn with
  | nil => exact h
  | append_singleton beats b ih => exact ih.concat (orderly.play proper beats) b

/-! ## Looks that begin later -/

/-- Call `look` has found a history in the cache that was put there late, before its time was over. -/
def Outdated (i look : Nat) (entry : HistoryEntry) (p : Pool Memory κ) (beats : List Beat) (h : List HistoryEntry) :
    Prop :=
  ∃ past e, past ++ [.step look] <+: beats ∧ (p.play past).calls[look]? = some (.recalling entry.orderId) ∧
    Holds (p.play past).site.cache e ∧ PutLate i entry p past h e ∧ (p.play past).site.clock.current < e.expiresAt

/-- a call that looks at the history of an order, will take so many steps at most, and answers as `P` says -/
inductive Looks (id : Nat) (P : List HistoryEntry → Prop) : Nat → Progress → Prop
  | recalling : Looks id P 3 (.recalling id)
  | reading : Looks id P 2 (.reading id)
  | keeping {h : List HistoryEntry} (answer : P h) : Looks id P 1 (.keeping id h)
  | ended {h : List HistoryEntry} (answer : P h) (n : Nat) : Looks id P n (.ended (.ok (.history h)))

theorem Looks.mono {id : Nat} {P Q : List HistoryEntry → Prop} {n : Nat} {q : Progress} (h : Looks id P n q)
    (hPQ : ∀ history, P history → Q history) : Looks id Q n q := by
  cases h with
  | recalling => exact .recalling
  | reading => exact .reading
  | keeping answer => exact .keeping (hPQ _ answer)
  | ended answer n => exact .ended (hPQ _ answer) n

/-- what a look may answer that begins after call `i` wrote the entry -/
def Answers (i look : Nat) (entry : HistoryEntry) (p : Pool Memory κ) (beats : List Beat) (h : List HistoryEntry) : Prop :=
  entry ∈ h ∨ Outdated i look entry p beats h

theorem Answers.concat {h : List HistoryEntry} (answers : Answers i look entry p beats h) (b : Beat) :
    Answers i look entry p (beats ++ [b]) h := by
  refine answers.imp_right fun ⟨past, e, hpre, rest⟩ => ?_
  exact ⟨past, e, hpre.trans (List.prefix_append beats [b]), rest⟩

theorem Looks.step {n : Nat} {q : Progress} (hq : (p.play beats).calls[look]? = some q)
    (h : Looks entry.orderId (Answers i look entry p beats) n q) (fair : Fair (p.play beats).site)
    (counts : Counts κ (p.play beats).site.cacheTtl (p.play beats).site.clock.current) (shown : Shown i entry p beats)
    (dropped : ∀ q, (p.play beats).calls[i]? = some q → entry.orderId ∉ q.drops) :
    Looks entry.orderId (Answers i look entry p (beats ++ [.step look])) (n - 1) (q.step (p.play beats).site).1 := by
  cases h with
  | ended answer n => exact .ended (answer.concat _) (n - 1)
  | recalling =>
    obtain ⟨fs, c, r, hr, -, recalled, sure⟩ := cachedHistory_run entry.orderId (p.play beats).site
    rw [Progress.recalling_step, hr]
    cases recalled with
    | missed => exact .reading
    | panicked text => exact nomatch (sure fair).2.2
    | found held key due read =>
      refine .ended ((shown.shown dropped _ held key _ read).imp_right fun late => ?_) 2
      exact ⟨beats, _, List.prefix_refl _, hq, held, late, due⟩
  | reading =>
    obtain ⟨fs, m, r, hr, -, sure⟩ := recordedHistory_run entry.orderId (p.play beats).site
    obtain ⟨-, rfl⟩ := sure fair.faultless
    rw [Progress.reading_step, hr, known, if_neg (List.ne_nil_of_mem shown.written)]
    exact .keeping (.inl shown.written)
  | @keeping history answer =>
    obtain ⟨fs, c, r, hr, -, sure⟩ := keepHistory_run entry.orderId history (p.play beats).site
    obtain rfl := (sure fair).2.2 counts
    rw [Progress.keeping_step, hr]
    exact .ended (answer.concat _) 0

/-- how many steps call `i` is to take -/
def steps (i : Nat) (beats : List Beat) : Nat :=
  beats.countP fun | .step j => j = i | _ => false

theorem steps_concat (i : Nat) (beats : List Beat) (b : Beat) : steps i (beats ++ [b]) = steps i beats + steps i [b] :=
  List.countP_append

theorem steps_own (i : Nat) : steps i [.step i] = 1 := by simp [steps]

theorem steps_other {i : Nat} {b : Beat} (other : b ≠ .step i) : steps i [b] = 0 := by
  cases b with
  | step j => simpa [steps] using other
  | enter | wait => rfl

/-- Beats of other calls do not keep a look from that. -/
theorem Looks.beat {n : Nat} {q : Progress} (hq : (p.play beats).calls[look]? = some q)
    (h : Looks entry.orderId (Answers i look entry p beats) n q) (fair : Fair (p.play beats).site)
    (counts : Counts κ (p.play beats).site.cacheTtl (p.play beats).site.clock.current) (shown : Shown i entry p beats)
    (dropped : ∀ q, (p.play beats).calls[i]? = some q → entry.orderId ∉ q.drops) (b : Beat) :
    ∃ q', (p.play (beats ++ [b])).calls[look]? = some q' ∧
      Looks entry.orderId (Answers i look entry p (beats ++ [b])) (n - steps look [b]) q' := by
  rw [Pool.play_concat]
  by_cases own : b = .step look
  · subst own
    rw [steps_own]
    exact ⟨_, Pool.beat_own hq, h.step hq fair counts shown dropped⟩
  · rw [steps_other own]
    exact ⟨q, Pool.beat_other hq own, h.mono fun _ answer => answer.concat b⟩

theorem Looks.play {before : List Beat} {r : Except Halt Reply} (proper : ∀ n, (s₀.clock.readings n).Proper)
    (counts : ∀ n, Counts κ s₀.cacheTtl (s₀.clock.readings n)) (orderly : Orderly s₀ p) (shown : Shown i entry p [])
    (ended : (p.play before).calls[i]? = some (.ended r))
    (entered : (p.play before).calls[look]? = some (.recalling entry.orderId)) (beats : List Beat) :
    ∃ q, (p.play (before ++ beats)).calls[look]? = some q ∧
      Looks entry.orderId (Answers i look entry p (before ++ beats)) (3 - steps look beats) q := by
  induction beats using List.reverseRecOn with
  | nil => exact ⟨_, by rwa [List.append_nil], .recalling⟩
  | append_singleton beats b ih =>
    obtain ⟨q, hq, h⟩ := ih
    have now := orderly.play proper (before ++ beats)
    have dropped : ∀ q, (p.play (before ++ beats)).calls[i]? = some q → entry.orderId ∉ q.drops := by
      intro q hq
      rw [Pool.play_append, Pool.play_ended ended] at hq
      cases hq
      exact List.not_mem_nil
    have counted : Counts κ (p.play (before ++ beats)).site.cacheTtl (p.play (before ++ beats)).site.clock.current := by
      rw [now.cacheTtl, Clock.current, now.readings]
      exact counts _
    obtain ⟨q', hq', h'⟩ := Looks.beat hq h now.fair counted (shown.play orderly proper _) dropped b
    rw [List.append_assoc] at hq' h'
    refine ⟨q', hq', ?_⟩
    rw [steps_concat, ← Nat.sub_sub]
    exact h'

end Change

/-! ## Changes are shown -/

/-- Call `i` writes an entry by its next step, and has ended after some more beats. -/
structure Makes (i : Nat) (entry : HistoryEntry) (p : Pool Memory κ) (rest : List Beat) : Prop where
  new : entry ∉ p.site.store.history
  written : entry ∈ (p.beat (.step i)).site.store.history
  ended : ∃ r, ((p.beat (.step i)).play rest).calls[i]? = some (.ended r)

/-- what becomes of a look, which has taken so many steps after some beats -/
structure Tells (i look : Nat) (entry : HistoryEntry) (p : Pool Memory κ) (beats : List Beat) (taken : Nat) : Prop where
  answer : ∀ r, (p.play beats).calls[look]? = some (.ended r) →
    ∃ h, r = .ok (.history h) ∧ (entry ∈ h ∨ Outdated i look entry p beats h)
  ends : 3 ≤ taken → ∃ r, (p.play beats).calls[look]? = some (.ended r)

/-- Whatever calls take turns: once a call has written an entry and has ended, every look at the history of the order
that enters then ends after three steps, with a history that has the entry or that the cache held and was put there
late. -/
def TellsChanges (s : Site Memory κ) : Prop :=
  ∀ (first : List Beat) (i : Nat) (entry : HistoryEntry) (rest more : List Beat),
    let before := Pool.play ⟨s, []⟩ first
    let written := before.beat (.step i)
    let look := (written.play rest).calls.length
    Makes i entry before rest →
      Tells i look entry written (rest ++ .enter (.orderHistory entry.orderId) :: more) (steps look more)

theorem Fresh.tellsChanges {none : κ} {s : Site Memory κ} (fresh : Fresh none s) (serves : Serves none)
    (counts : ∀ n, Counts κ s.cacheTtl (s.clock.readings n)) : TellsChanges s := by
  intro first i entry rest more before written look makes
  have orderly : Orderly s before := (fresh.orderly serves).play fresh.proper first
  obtain ⟨r, ended⟩ := makes.ended
  have entered : (written.play (rest ++ [.enter (.orderHistory entry.orderId)])).calls[look]? =
      some (.recalling entry.orderId) := by
    rw [Pool.play_concat]
    exact List.getElem?_concat_length
  have returned : (written.play (rest ++ [.enter (.orderHistory entry.orderId)])).calls[i]? = some (.ended r) := by
    rw [Pool.play_concat]
    exact Pool.beat_ended ended _
  obtain ⟨q, hq, h⟩ := Looks.play fresh.proper counts (orderly.beat fresh.proper (.step i))
    (shown_of_written orderly makes.written makes.new) returned entered more
  rw [List.append_assoc] at hq h
  refine ⟨fun r hr => ?_, fun count => ?_⟩
  · obtain rfl : q = .ended r := Option.some.inj (hq.symm.trans hr)
    generalize 3 - steps look more = left at h
    cases h with
    | ended answer => exact ⟨_, rfl, answer⟩
  · rw [Nat.sub_eq_zero_of_le count] at h
    cases h with
    | ended answer => exact ⟨_, hq⟩

/-- **Changes are shown.** For every interleaving of calls, with the cache in memory as long as it can count the end of
what it keeps and with a cache on a server: a look that begins after the call has ended that made a change shows the
change, unless it finds in the cache, before its time is over, what another look had read before the change and put
there after the call had dropped it. -/
theorem change_shown :
    (∀ s : Site Memory TimedCache, Fresh .empty s →
      (∀ n, (s.clock.readings n).second + s.cacheTtl ≤ TimedCache.lastSecond) → TellsChanges s) ∧
      ∀ s : Site Memory CacheServer, Fresh .empty s → TellsChanges s :=
  ⟨fun _ fresh counts => fresh.tellsChanges trivial counts, fun _ fresh => fresh.tellsChanges rfl fun _ => trivial⟩

/-! ## A look that is late -/

def hasEnded : Option Progress → Bool
  | some (.ended _) => true
  | _ => false

theorem ended_of_hasEnded {x : Option Progress} (h : hasEnded x = true) : ∃ r, x = some (.ended r) := by
  unfold hasEnded at h
  split at h
  · exact ⟨_, rfl⟩
  · cases h

/-- the history that a call has answered -/
def told? : Option Progress → Option (List HistoryEntry)
  | some (.ended (.ok (.history h))) => some h
  | _ => none

theorem eq_of_told? {x : Option Progress} {h : List HistoryEntry} (hx : told? x = some h) :
    x = some (.ended (.ok (.history h))) := by
  unfold told? at hx
  split at hx <;> cases hx
  rfl

/-- A parcel is accepted, call 1 looks at its history and has read it, and call 2 is about to note that the parcel is
collected. -/
def readFirst : List Beat :=
  [.enter (.accept lightParcel), .step 0, .step 0, .step 0, .enter (.orderHistory 1), .step 1, .step 1,
    .enter (.process 7 .issue [1]), .step 2]

/-- Call 2 drops the history and ends, and then call 1 keeps what it has read. -/
def keptAfter : List Beat := [.step 2, .step 2, .step 1]

def isCollected : HistoryEntry := ⟨2, 1, .accepted, ⟨3, 0⟩⟩

theorem collection_made : Makes 2 isCollected (Pool.play ⟨opening TimedCache.empty, []⟩ readFirst) keptAfter where
  new := by decide +kernel
  written := by decide +kernel
  ended := ended_of_hasEnded (by decide +kernel)

/-- The look that enters as call 3 finds in the cache what call 1 has read. -/
theorem collection_untold :
    (((Pool.play ⟨opening TimedCache.empty, []⟩ readFirst).beat (.step 2)).play
      (keptAfter ++ .enter (.orderHistory 1) :: [.step 3])).calls[
        (((Pool.play ⟨opening TimedCache.empty, []⟩ readFirst).beat (.step 2)).play keptAfter).calls.length]? =
      some (.ended (.ok (.history [⟨1, 1, .expects, ⟨1, 0⟩⟩]))) :=
  eq_of_told? (by decide +kernel)

/-- Not every look that enters after a call has ended that made a change shows the change. -/
theorem late_look_hides_change :
    ¬ ∀ (first : List Beat) (i : Nat) (entry : HistoryEntry) (rest more : List Beat) (r : Except Halt Reply),
      let before := Pool.play ⟨opening TimedCache.empty, []⟩ first
      let written := before.beat (.step i)
      Makes i entry before rest →
        (written.play (rest ++ .enter (.orderHistory entry.orderId) :: more)).calls[
          (written.play rest).calls.length]? = some (.ended r) → ∃ h, r = .ok (.history h) ∧ entry ∈ h := by
  intro shown
  obtain ⟨h, told, mem⟩ := shown readFirst 2 isCollected keptAfter [.step 3] _ collection_made collection_untold
  cases told
  revert mem
  decide

/-- What the look finds was put there late. -/
theorem change_shown_but_late :
    Outdated 2 3 isCollected ((Pool.play ⟨opening TimedCache.empty, []⟩ readFirst).beat (.step 2))
      (keptAfter ++ .enter (.orderHistory 1) :: [.step 3]) [⟨1, 1, .expects, ⟨1, 0⟩⟩] := by
  have tells := change_shown.1 _ (opening_fresh _) opening_counts readFirst 2 isCollected keptAfter [.step 3]
    collection_made
  obtain ⟨h, told, answer⟩ := tells.answer _ collection_untold
  cases told
  have look : (((Pool.play ⟨opening TimedCache.empty, []⟩ readFirst).beat (.step 2)).play keptAfter).calls.length = 3 := by
    decide +kernel
  rw [look] at answer
  exact answer.resolve_left (by decide)

end PickupPoint
