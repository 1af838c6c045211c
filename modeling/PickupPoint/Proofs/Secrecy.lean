/-
The text of an internal error stays inside.

Some errors carry a text that is meant for the log, and so does a panic. `muted` takes this text away. Two sites are alike
if they are the same once the faults that are set are muted: the same calls fail there, for causes of the same kind. An
act is `Discreet` if it cannot tell alike sites apart: on both it ends with one answer, or for causes that are the same
when muted, and leaves alike sites. What is caught on the way may differ in such a text (`Indistinct.caught`), so what is
done then has to be indistinct for any two of them.

Every call of the service is discreet, whatever it is stored and cached in (`perform_discreet`), an answer shows no more
of an error than is left when it is muted, and so all answers of a session are the same (`texts_stay_inside`).
-/
import PickupPoint.Proofs.Receipts
import PickupPoint.Proofs.Rejections

namespace PickupPoint

/-! ## What is kept inside -/

/-- the error without the text that is kept inside -/
def Error.muted : Error → Error
  | .importFailed _ => .importFailed ""
  | .openFailed _ => .openFailed ""
  | .readFailed _ => .readFailed ""
  | .jsonFailed _ => .jsonFailed ""
  | .internal _ => .internal ""
  | e => e

def Effect.muted : Effect → Effect
  | .error e => .error e.muted
  | .panic _ => .panic ""
  | .skip => .skip

def Fault.muted (f : Fault) : Fault := { f with effect := f.effect.muted }

variable {σ κ α β γ : Type}

/-- the site with every fault muted -/
def Site.muted (s : Site σ κ) : Site σ κ := { s with faults := s.faults.map Fault.muted }

theorem Error.code_eq {e e' : Error} (h : e.muted = e'.muted) : e.code = e'.code := by
  have kept : ∀ e : Error, e.muted.code = e.code := fun e => by cases e <;> rfl
  rw [← kept e, h, kept]

/-- What is the same when muted is the same, or differs in such a text. -/
inductive Error.Alike : Error → Error → Prop
  | same (e : Error) : Alike e e
  | importFailed (text text' : String) : Alike (.importFailed text) (.importFailed text')
  | openFailed (text text' : String) : Alike (.openFailed text) (.openFailed text')
  | readFailed (text text' : String) : Alike (.readFailed text) (.readFailed text')
  | jsonFailed (text text' : String) : Alike (.jsonFailed text) (.jsonFailed text')
  | internal (text text' : String) : Alike (.internal text) (.internal text')

theorem Error.alike_of_muted {e e' : Error} (h : e.muted = e'.muted) : e.Alike e' := by
  cases e <;> cases e' <;> cases h <;> constructor

/-- Alike sites differ in their faults only. -/
theorem Site.alike_iff {s s' : Site σ κ} : s.muted = s'.muted ↔
    ∃ fs, s' = { s with faults := fs } ∧ s.faults.map Fault.muted = fs.map Fault.muted := by
  constructor
  · intro h
    obtain ⟨clock, eventIds, store, cache, cacheTtl, metrics, faults⟩ := s
    obtain ⟨_, _, _, _, _, _, fs⟩ := s'
    simp only [muted, Site.mk.injEq] at h
    obtain ⟨rfl, rfl, rfl, rfl, rfl, rfl, same⟩ := h
    exact ⟨fs, rfl, same⟩
  · rintro ⟨fs, rfl, same⟩
    simp only [muted, same]

namespace Fault

theorem effect?_muted (f : Fault) (p : Point) (after : Bool) :
    f.muted.effect? p after = (f.effect? p after).map Effect.muted := by
  unfold effect?
  show (if f.isAt p after ∧ f.covers (f.seen + 1) then some f.effect.muted else none) = _
  split <;> rfl

theorem notice_muted (f : Fault) (p : Point) (after : Bool) : f.muted.notice p after = (f.notice p after).muted := by
  unfold notice
  show (if f.isAt p after then _ else _) = _
  split <;> rfl

/-- An arrival meets the muted effect of what it would have met, and is noticed alike. -/
theorem arrive_muted (p : Point) (after : Bool) (fs : List Fault) :
    arrive p after (fs.map muted) = ((arrive p after fs).1.map Effect.muted, (arrive p after fs).2.map muted) := by
  unfold arrive
  refine Prod.ext ?_ ?_
  · show (fs.map muted).findSome? _ = (fs.findSome? _).map Effect.muted
    induction fs with
    | nil => rfl
    | cons f fs ih =>
      rw [List.map_cons, List.findSome?_cons, List.findSome?_cons, effect?_muted]
      cases f.effect? p after with
      | none => exact ih
      | some e => rfl
  · show (fs.map muted).map _ = (fs.map _).map muted
    rw [List.map_map, List.map_map]
    exact List.map_congr_left fun f _ => notice_muted f p after

end Fault

/-! ## Acts that end alike -/

namespace Act

/-- one answer, or causes that differ in nothing but a text that is kept inside -/
inductive EndsAlike : Except Halt α → Except Halt α → Prop
  | answer (a : α) : EndsAlike (.ok a) (.ok a)
  | refusal {e e' : Error} (same : e.muted = e'.muted) : EndsAlike (.error (.error e)) (.error (.error e'))
  | panic (text text' : String) : EndsAlike (.error (.panic text)) (.error (.panic text'))

theorem EndsAlike.refl (r : Except Halt α) : EndsAlike r r := by
  rcases r with (e | text) | a
  · exact .refusal rfl
  · exact .panic text text
  · exact .answer a

/-- started on alike sites, both end alike and leave alike sites -/
def Indistinct (act act' : Act σ κ α) : Prop :=
  ∀ s s', s.muted = s'.muted → EndsAlike (act s).1 (act' s').1 ∧ (act s).2.muted = (act' s').2.muted

/-- the act cannot tell alike sites apart -/
abbrev Discreet (act : Act σ κ α) : Prop := Indistinct act act

/-! ### Scopes -/

/-- work between the opening of a scope and its end, which is told how the work ended -/
def bracket (opening : Instant → Access σ Unit) (ending : σ → Except Halt α → Act σ κ β) (act : Act σ κ α) : Act σ κ β :=
  fun s =>
    match opening s.clock.current s.store with
    | (.error e, m) => (.error (.error e), { s with store := m })
    | (.ok (), m) => ending s.store (act { s with store := m }).1 (act { s with store := m }).2

section Scopes

variable [OrderStore σ]

/-- the end of a transaction -/
def commitOrRollback (start : σ) : Except Halt α → Act σ κ α
  | .ok a => do
    onStore fun _ => OrderStore.commit start
    return a
  | .error halt => fun s => (.error halt, { s with store := OrderStore.rollback start s.store })

/-- the end of a savepoint -/
def releaseOrRollback (start : σ) : Except Halt α → Act σ κ (Option α)
  | .ok a => do
    onStore fun _ => OrderStore.release start
    return some a
  | .error (.error e) => fun s => (.error (.error e), { s with store := OrderStore.rollbackTo start s.store })
  | .error (.panic text) => panic text

theorem inTransaction_bracket (work : Act σ κ α) (s : Site σ κ) :
    ((inTransaction work id s).1.2, (inTransaction work id s).2) =
      bracket OrderStore.begin commitOrRollback work s := by
  unfold inTransaction atStore bracket
  dsimp only
  rcases OrderStore.begin s.clock.current s.store with ⟨_ | _, m⟩
  · rfl
  dsimp only [id]
  rcases work { s with store := m } with ⟨halt | a, t⟩
  · rfl
  · show _ = (do onStore (fun _ => OrderStore.commit s.store); return a : Act σ κ α) t
    rw [bind_run, onStore_run]
    dsimp only
    rcases OrderStore.commit s.store t.store with ⟨_ | _, m'⟩ <;> rfl

theorem inSavepoint_bracket (work : Act σ κ α) (s : Site σ κ) :
    ((inSavepoint work id s).1.2.map some, (inSavepoint work id s).2) =
      bracket (fun _ => OrderStore.savepoint) releaseOrRollback work s := by
  unfold inSavepoint atStore bracket
  dsimp only
  rcases (OrderStore.savepoint s.store : Except Error Unit × σ) with ⟨_ | _, m⟩
  · rfl
  dsimp only [id]
  rcases work { s with store := m } with ⟨(e | text) | a, t⟩
  · rfl
  · rfl
  · show _ = (do onStore (fun _ => OrderStore.release s.store); return some a : Act σ κ (Option α)) t
    rw [bind_run, onStore_run]
    dsimp only
    rcases OrderStore.release s.store t.store with ⟨_ | _, m'⟩ <;> rfl

theorem transaction_bracket (act : Act σ κ α) :
    transaction act = (do
      let _ ← arrive .begin false
      bracket OrderStore.begin commitOrRollback (closedAt .commit false act)) := by
  rw [← funext (inTransaction_bracket (closedAt .commit false act))]
  rfl

theorem savepoint_bracket (act : Act σ κ α) :
    savepoint act = (do
      if ← arrive .txSavepoint false then return none
      bracket (fun _ => OrderStore.savepoint) releaseOrRollback (closedAt .txSavepoint true act)) := by
  rw [← funext (inSavepoint_bracket (closedAt .txSavepoint true act))]
  rfl

end Scopes

namespace Indistinct

variable {act act' : Act σ κ α}

theorem pure (a : α) : Discreet (Pure.pure a : Act σ κ α) := fun _ _ h => ⟨.answer a, h⟩

theorem refuse {e e' : Error} (same : e.muted = e'.muted) : Indistinct (Act.refuse e : Act σ κ α) (Act.refuse e') :=
  fun _ _ h => ⟨.refusal same, h⟩

theorem bind {f f' : α → Act σ κ β} (h : Indistinct act act') (hf : ∀ a, Indistinct (f a) (f' a)) :
    Indistinct (act >>= f) (act' >>= f') := by
  intro s s' hs
  obtain ⟨ends, sites⟩ := h s s' hs
  rw [bind_run, bind_run]
  rcases hr : act s with ⟨r, t⟩
  rcases hr' : act' s' with ⟨r', t'⟩
  rw [hr, hr'] at ends sites
  cases ends with
  | answer a => exact hf a t t' sites
  | refusal same => exact ⟨.refusal same, sites⟩
  | panic text text' => exact ⟨.panic text text', sites⟩

/-- What is caught may differ in a text that is kept inside. -/
theorem caught {f f' : Except Error α → Act σ κ β} (h : Indistinct act act') (ok : ∀ a, Indistinct (f (.ok a)) (f' (.ok a)))
    (error : ∀ e e', e.muted = e'.muted → Indistinct (f (.error e)) (f' (.error e'))) :
    Indistinct (attempt act >>= f) (attempt act' >>= f') := by
  intro s s' hs
  obtain ⟨ends, sites⟩ := h s s' hs
  rw [bind_run, bind_run, attempt_run, attempt_run]
  rcases hr : act s with ⟨r, t⟩
  rcases hr' : act' s' with ⟨r', t'⟩
  rw [hr, hr'] at ends sites
  cases ends with
  | answer a => exact ok a t t' sites
  | refusal same => exact error _ _ same t t' sites
  | panic text text' => exact ⟨.panic text text', sites⟩

/-- An act that neither asks for the faults nor changes them. -/
theorem unaware (h : ∀ s fs, act { s with faults := fs } = ((act s).1, { (act s).2 with faults := fs })) :
    Discreet act := by
  intro s s' hs
  obtain ⟨fs, rfl, same⟩ := Site.alike_iff.1 hs
  have left : act s = ((act s).1, { (act s).2 with faults := s.faults }) := h s s.faults
  rw [h s fs]
  refine ⟨.refl _, Site.alike_iff.2 ⟨fs, rfl, ?_⟩⟩
  rw [left]
  exact same

theorem ofExcept (r : Except Error α) : Discreet (Act.ofExcept r : Act σ κ α) :=
  unaware fun s fs => by cases r <;> rfl

theorem readClock : Discreet (Act.readClock : Act σ κ Instant) := unaware fun _ _ => rfl

theorem newEventId : Discreet (Act.newEventId : Act σ κ Uuid) := unaware fun _ _ => rfl

theorem noteEvent (t : EventType) : Discreet (Act.noteEvent t : Act σ κ Unit) := unaware fun _ _ => rfl

theorem onStore (op : Instant → Access σ α) : Discreet (Act.onStore op : Act σ κ α) :=
  unaware fun s fs => by rw [onStore_run, onStore_run]

theorem onCache (op : Instant → CacheAccess κ α) : Discreet (Act.onCache op : Act σ κ (Option α)) :=
  unaware fun s fs => by rw [onCache_run, onCache_run]

/-- Refusals are counted by their code. -/
theorem noteFailure {e e' : Error} (same : e.muted = e'.muted) :
    Indistinct (Act.noteFailure e : Act σ κ Unit) (Act.noteFailure e') := by
  have one : (Act.noteFailure e' : Act σ κ Unit) = Act.noteFailure e := by
    rw [Act.noteFailure, Act.noteFailure, Error.code_eq same]
  rw [one]
  exact unaware fun _ _ => rfl

theorem fail {e e' : Error} (same : e.muted = e'.muted) : Indistinct (Act.fail e : Act σ κ α) (Act.fail e') :=
  (noteFailure same).bind fun _ => refuse same

theorem counted (h : Indistinct act act') : Indistinct (Act.counted act) (Act.counted act') :=
  h.caught pure fun _ _ => fail

theorem met_alike {x y : Option Effect} (h : x.map Effect.muted = y.map Effect.muted) :
    EndsAlike (metBy x) (metBy y) := by
  cases x with
  | none =>
    cases y with
    | none => exact .answer false
    | some _ => cases h
  | some e =>
    cases y with
    | none => cases h
    | some e' =>
      have same : e.muted = e'.muted := Option.some.inj h
      cases e with
      | error e =>
        cases e' with
        | error e' => exact .refusal (Effect.error.inj same)
        | panic _ | skip => cases same
      | panic text =>
        cases e' with
        | panic text' => exact .panic text text'
        | error _ | skip => cases same
      | skip =>
        cases e' with
        | skip => exact .answer true
        | error _ | panic _ => cases same

theorem arrive (p : Point) (after : Bool) : Discreet (Act.arrive p after : Act σ κ Bool) := by
  intro s s' hs
  obtain ⟨fs, rfl, same⟩ := Site.alike_iff.1 hs
  rw [arrive_run, arrive_run]
  have met := Fault.arrive_muted p after s.faults
  rw [same, Fault.arrive_muted] at met
  obtain ⟨effects, faults⟩ := Prod.ext_iff.1 met
  exact ⟨met_alike effects.symm, Site.alike_iff.2 ⟨_, rfl, faults.symm⟩⟩

theorem reachedAt {p : Point} (h : Indistinct act act') : Indistinct (Act.reachedAt p act) (Act.reachedAt p act') :=
  (arrive p false).bind fun _ => h.bind fun a => (arrive p true).bind fun _ => pure a

/-! ### Loops -/

theorem mapM {f : γ → Act σ κ α} (h : ∀ x, Discreet (f x)) (items : List γ) : Discreet (items.mapM f) := by
  induction items with
  | nil => exact pure []
  | cons x items ih =>
    rw [List.mapM_cons]
    exact (h x).bind fun a => ih.bind fun as => pure (a :: as)

theorem forM {f : γ → Act σ κ Unit} (h : ∀ x, Discreet (f x)) (items : List γ) : Discreet (items.forM f) := by
  induction items with
  | nil => exact pure ()
  | cons x items ih => exact (h x).bind fun _ => ih

theorem foldlM {f : α → γ → Act σ κ α} (h : ∀ a x, Discreet (f a x)) (items : List γ) (a : α) :
    Discreet (items.foldlM f a) := by
  induction items generalizing a with
  | nil => exact pure a
  | cons x items ih =>
    rw [List.foldlM_cons]
    exact (h a x).bind ih

/-! ### Scopes -/

theorem closedAt {p : Point} {after : Bool} (h : Indistinct act act') :
    Indistinct (Act.closedAt p after act) (Act.closedAt p after act') :=
  h.bind fun a => (arrive p after).bind fun _ => pure a

/-- Work in a scope, and an end of the scope that is told how the work ended. -/
theorem bracket {opening : Instant → Access σ Unit} {ending : σ → Except Halt α → Act σ κ β} (h : Indistinct act act')
    (hending : ∀ start r r', EndsAlike r r' → Indistinct (ending start r) (ending start r')) :
    Indistinct (Act.bracket opening ending act) (Act.bracket opening ending act') := by
  intro s s' hs
  obtain ⟨fs, rfl, same⟩ := Site.alike_iff.1 hs
  unfold Act.bracket
  dsimp only
  rcases opening s.clock.current s.store with ⟨e | _, m⟩
  · exact ⟨.refl _, Site.alike_iff.2 ⟨fs, rfl, same⟩⟩
  · obtain ⟨ends, sites⟩ := h { s with store := m } { s with store := m, faults := fs } (Site.alike_iff.2 ⟨fs, rfl, same⟩)
    exact hending s.store _ _ ends _ _ sites

/-- An end that takes back what was written. -/
theorem undone {r r' : Except Halt α} (ends : EndsAlike r r') (undo : σ → σ) :
    Indistinct (fun s : Site σ κ => (r, { s with store := undo s.store }))
      (fun s => (r', { s with store := undo s.store })) := by
  intro s s' hs
  obtain ⟨fs, rfl, same⟩ := Site.alike_iff.1 hs
  exact ⟨ends, Site.alike_iff.2 ⟨fs, rfl, same⟩⟩

variable [OrderStore σ]

theorem transaction (h : Indistinct act act') : Indistinct (PickupPoint.transaction act) (PickupPoint.transaction act') := by
  rw [transaction_bracket, transaction_bracket]
  refine (arrive .begin false).bind fun _ => bracket h.closedAt fun start r r' ends => ?_
  cases ends with
  | answer a => exact (onStore _).bind fun _ => pure a
  | refusal same => exact undone (.refusal same) (OrderStore.rollback start)
  | panic text text' => exact undone (.panic text text') (OrderStore.rollback start)

theorem savepoint (h : Indistinct act act') : Indistinct (PickupPoint.savepoint act) (PickupPoint.savepoint act') := by
  rw [savepoint_bracket, savepoint_bracket]
  refine (arrive .txSavepoint false).bind fun skipped => ?_
  cases skipped with
  | true => exact pure none
  | false =>
    rw [if_neg Bool.false_ne_true, if_neg Bool.false_ne_true]
    refine bracket h.closedAt fun start r r' ends => ?_
    cases ends with
    | answer a => exact (onStore _).bind fun _ => pure (some a)
    | refusal same => exact undone (.refusal same) (OrderStore.rollbackTo start)
    | panic text text' => exact fun _ _ hs => ⟨.panic text text', hs⟩

end Indistinct
end Act

/-! ## The service -/

open Act

theorem call_discreet (p : Point) (op : Instant → Access σ α) : Discreet (reachedAt p (onStore op) : Act σ κ α) :=
  Indistinct.reachedAt (.onStore op)

theorem askCache_discreet (p : Point) (op : Instant → CacheAccess κ α) : Discreet (askCache p op : Act σ κ (Option α)) :=
  (Indistinct.arrive p false).caught (fun _ => .onCache op) fun _ _ _ => .pure none

theorem dropHistory_discreet [HistoryCache κ] (id : Nat) : Discreet (dropHistory id : Act σ κ Unit) :=
  (askCache_discreet _ _).bind fun _ => .pure ()

theorem checkReclaim_discreet (o : Order) : Discreet (checkReclaim o : Act σ κ Unit) := by
  have timed : Discreet (do
      let now ← readClock
      if now < o.expiresAt then Act.refuse .storageNotExpired : Act σ κ Unit) := by
    refine Indistinct.readClock.bind fun now => ?_
    split_ifs
    · exact .refuse rfl
    · exact .pure ()
  unfold checkReclaim
  cases o.status with
  | accepted => exact .refuse rfl
  | returned => exact .pure ()
  | expects | deleted => exact timed

section Service

variable [OrderStore σ]

theorem appendEvent_discreet (t : EventType) (actor : Actor) (o : Order) (status : Status) :
    Discreet (appendEvent t actor o status : Act σ κ Unit) :=
  Indistinct.newEventId.bind fun _ => Indistinct.readClock.bind fun _ => call_discreet _ _

theorem insertNew_discreet (o : Order) : Discreet (insertNew o : Act σ κ Unit) := by
  refine (call_discreet _ _).caught (fun _ => .pure ()) fun e e' same => ?_
  cases Error.alike_of_muted same with
  | same => cases e <;> exact .refuse rfl
  | importFailed | openFailed | readFailed | jsonFailed | internal => exact .refuse rfl

theorem storeAccepted_discreet (o : Order) : Discreet (storeAccepted o : Act σ κ Unit) := by
  refine (Indistinct.counted (Indistinct.transaction ?_)).bind fun _ => .noteEvent _
  exact (insertNew_discreet o).bind fun _ => (call_discreet _ _).bind fun _ => appendEvent_discreet _ _ _ _

theorem storeReclaimed_discreet (id : Nat) : Discreet (storeReclaimed id : Act σ κ Unit) := by
  refine (Indistinct.counted (Indistinct.transaction ?_)).bind fun _ => .noteEvent _
  refine (call_discreet _ _).bind fun o => (checkReclaim_discreet o).bind fun _ => ?_
  exact (call_discreet _ _).bind fun _ => (call_discreet _ _).bind fun _ => appendEvent_discreet _ _ _ _

theorem checkAcceptance_discreet (a : Acceptance) : Discreet (checkAcceptance a : Act σ κ Order) := by
  unfold checkAcceptance
  refine Indistinct.readClock.bind fun now => ?_
  split_ifs
  · rw [fail_bind]
    exact .fail rfl
  refine (Indistinct.counted (.ofExcept _)).bind fun package => ?_
  have rest : Discreet (do
      let order : Order := ⟨a.orderId, a.userId, .expects, a.expiresAt, package, a.weight, a.price⟩
      counted (ofExcept order.checkWeight)
      let order := order.addSurcharge
      counted (ofExcept order.checkPrice)
      return order : Act σ κ Order) :=
    (Indistinct.counted (.ofExcept _)).bind fun _ => (Indistinct.counted (.ofExcept _)).bind fun _ => .pure _
  refine (call_discreet _ _).caught (fun _ => ?_) fun e e' same => ?_
  · dsimp only
    rw [fail_bind]
    exact .fail rfl
  · cases Error.alike_of_muted same with
    | same =>
      cases e with
      | orderNotFound => exact rest
      | _ =>
        dsimp only
        rw [fail_bind]
        exact .fail rfl
    | importFailed | openFailed | readFailed | jsonFailed | internal =>
      dsimp only
      rw [fail_bind, fail_bind]
      exact .fail rfl

theorem applyAction_discreet (userId : Nat) (action : Action) (now : Instant) (id : Nat) :
    Discreet (applyAction userId action now id : Act σ κ EventType) := by
  refine (call_discreet _ _).bind fun o => ?_
  dsimp only
  split_ifs
  · rw [refuse_bind]; exact .refuse rfl
  · rw [refuse_bind]; exact .refuse rfl
  · rw [refuse_bind]; exact .refuse rfl
  · refine (Indistinct.ofExcept _).bind fun after => ?_
    refine (call_discreet _ _).bind fun _ => (call_discreet _ _).bind fun _ => ?_
    exact (appendEvent_discreet _ _ _ _).bind fun _ => .pure _

theorem applyInBatch_discreet (userId : Nat) (action : Action) (now : Instant) (id : Nat) :
    Discreet (applyInBatch userId action now id : Act σ κ (Nat × Option EventType)) := by
  refine (Indistinct.savepoint (applyAction_discreet userId action now id)).caught (fun _ => .pure _) ?_
  exact fun _ _ same => (Indistinct.noteFailure same).bind fun _ => .pure _

variable [HistoryCache κ]

theorem accept_discreet (a : Acceptance) : Discreet (accept a : Act σ κ Order) := by
  refine (checkAcceptance_discreet a).bind fun o => (storeAccepted_discreet o).bind fun _ => ?_
  exact (dropHistory_discreet o.id).bind fun _ => .pure o

theorem reclaim_discreet (id : Nat) : Discreet (reclaim id : Act σ κ Status) :=
  (storeReclaimed_discreet id).bind fun _ => (dropHistory_discreet id).bind fun _ => .pure _

theorem importRecord_discreet (r : ImportResult) (record : Except RejectedRecord Acceptance) :
    Discreet (importRecord r record : Act σ κ ImportResult) := by
  cases record with
  | ok a => exact (accept_discreet a).caught (fun _ => .pure _) fun _ _ _ => .pure _
  | error rejected => exact (Indistinct.noteFailure rfl).bind fun _ => .pure _

/-- A batch that fails as a whole fails for every id of it. -/
theorem process_discreet (userId : Nat) (action : Action) (ids : List Nat) :
    Discreet (process userId action ids : Act σ κ BatchResult) := by
  refine Indistinct.readClock.bind fun now => ?_
  have batch : Discreet (ids.mapM (applyInBatch userId action now) : Act σ κ _) :=
    .mapM (applyInBatch_discreet userId action now) ids
  refine (Indistinct.transaction batch).caught (fun outcomes => ?_) fun e e' same => ?_
  · refine (Indistinct.forM Indistinct.noteEvent _).bind fun _ => ?_
    exact (Indistinct.forM dropHistory_discreet _).bind fun _ => .pure _
  · exact (Indistinct.noteFailure same).bind fun _ => .pure _

theorem orderHistory_discreet (id : Nat) : Discreet (orderHistory id : Act σ κ (List HistoryEntry)) := by
  have cached : Discreet (cachedHistory id : Act σ κ (Option (List HistoryEntry))) :=
    (askCache_discreet _ _).bind fun _ => .pure _
  have recorded : Discreet (recordedHistory id : Act σ κ (List HistoryEntry)) := by
    refine (Indistinct.counted (call_discreet _ _)).bind fun history => ?_
    split_ifs
    · rw [fail_bind]; exact .fail rfl
    · exact .pure history
  have kept : ∀ history, Discreet (keepHistory id history : Act σ κ Unit) := fun history => by
    intro s s' hs
    obtain ⟨fs, rfl, -⟩ := Site.alike_iff.1 hs
    have put := askCache_discreet (σ := σ) .cacheSet
      (HistoryCache.set (κ := κ) (cacheKey id) (historyText history) s.cacheTtl)
    exact put.bind (fun _ => .pure ()) s _ hs
  refine cached.bind fun found => ?_
  cases found with
  | some history => exact .pure history
  | none => exact recorded.bind fun history => (kept history).bind fun _ => .pure history

omit [HistoryCache κ] in
/-- a question about all orders -/
theorem asked_discreet (answer : List Order → α) :
    Discreet (do
      let orders ← counted storedOrders
      return answer orders : Act σ κ α) :=
  (Indistinct.counted (call_discreet _ _)).bind fun _ => .pure _

theorem perform_discreet (c : Call) : Discreet (c.perform : Act σ κ Reply) := by
  cases c with
  | accept a => exact (accept_discreet a).bind fun _ => .pure _
  | reclaim id => exact (reclaim_discreet id).bind fun _ => .pure _
  | process userId action ids => exact (process_discreet userId action ids).bind fun _ => .pure _
  | importAll records => exact (Indistinct.foldlM importRecord_discreet records _).bind fun _ => .pure _
  | list userId inPickupPoint last page limit =>
    refine Indistinct.bind ?_ fun _ => .pure _
    unfold listOrders
    split_ifs
    · rw [fail_bind]; exact .fail rfl
    · exact asked_discreet _
  | returns page limit => exact Indistinct.bind (asked_discreet _) fun _ => .pure _
  | scroll userId cursor limit => exact Indistinct.bind (asked_discreet _) fun _ => .pure _
  | history page count => exact (Indistinct.counted (call_discreet _ _)).bind fun _ => .pure _
  | orderHistory id => exact (orderHistory_discreet id).bind fun _ => .pure _
  | get id => exact (Indistinct.counted (call_discreet _ _)).bind fun _ => .pure _

end Service

/-! ## Answers -/

namespace Http

/-- Errors that are the same when muted are answered in the same way. -/
theorem ofError_congr {e e' : Error} (h : e.muted = e'.muted) : ofError e = ofError e' := by
  cases Error.alike_of_muted h with
  | same => rfl
  | importFailed | openFailed | readFailed | jsonFailed | internal => rfl

variable [OrderStore σ] [HistoryCache κ]

theorem handle_alike (r : Request) {s s' : Site σ κ} (h : s.muted = s'.muted) :
    (handle r s).1 = (handle r s').1 ∧ (handle r s).2.muted = (handle r s').2.muted := by
  unfold handle
  rcases Demand.ofRequest r with ⟨status, c⟩ | e | _ | status
  · obtain ⟨ends, sites⟩ := perform_discreet c s s' h
    rcases hr : c.perform s with ⟨a, t⟩
    rcases hr' : c.perform s' with ⟨a', t'⟩
    rw [hr, hr'] at ends sites
    simp only [answer, hr, hr']
    cases ends with
    | answer reply => exact ⟨rfl, sites⟩
    | refusal same => exact ⟨ofError_congr same, sites⟩
    | panic => exact ⟨rfl, sites⟩
  · exact ⟨rfl, h⟩
  · obtain ⟨fs, rfl, -⟩ := Site.alike_iff.1 h
    exact ⟨rfl, h⟩
  · exact ⟨rfl, h⟩

/-- the answers to the requests of a session -/
def replies (s : Site σ κ) : List Request → List Response
  | [] => []
  | r :: rest => (handle r s).1 :: replies (handle r s).2 rest

theorem replies_alike (requests : List Request) {s s' : Site σ κ} (h : s.muted = s'.muted) :
    replies s requests = replies s' requests := by
  induction requests generalizing s s' with
  | nil => rfl
  | cons r rest ih =>
    obtain ⟨response, sites⟩ := handle_alike r h
    rw [replies, replies, response, ih sites]

/-- **The text of an internal error stays inside.** Whatever orders are stored in, whatever caches them, and wherever a
session begins: if the faults that are set differ in nothing but texts of internal errors and of panics, every request
of the session is answered in the same way. -/
theorem texts_stay_inside (s : Site σ κ) {fs fs' : List Fault} (alike : fs.map Fault.muted = fs'.map Fault.muted)
    (requests : List Request) :
    replies { s with faults := fs } requests = replies { s with faults := fs' } requests :=
  replies_alike requests (Site.alike_iff.2 ⟨fs', rfl, alike⟩)

/-- a store that fails now and then, and says why -/
def failing (why : String) : List Fault :=
  [⟨.txSaveOrder, false, 1, some 2, .error (.internal why), 0⟩, ⟨.txGetOrder, false, 1, none, .error (.jsonFailed why), 0⟩,
    ⟨.getHistory, false, 1, none, .error (.readFailed why), 0⟩, ⟨.listOrders, false, 1, none, .panic why, 0⟩]

/-- A parcel is handed over, imported, handed over again and collected; then orders and histories are asked for. -/
def longSession : List Request :=
  [boxParcel, importOf "\x7b\"orders\":[[2,7,1.0,\"10\",\"2999-01-01T00:00:00Z\"]]\x7d", boxParcel,
    ⟨"POST", ⟨"/orders/process", ""⟩, some "application/json",
      "\x7b\"user_id\":7,\"action\":\"issue\",\"order_ids\":[1]\x7d".toUTF8.toList⟩,
    ⟨"GET", ⟨"/orders", "user_id=7"⟩, none, []⟩, ⟨"GET", ⟨"/history", ""⟩, none, []⟩,
    ⟨"GET", ⟨"/metrics", ""⟩, none, []⟩]

/-- Two stores that fail for reasons of their own. -/
theorem texts_stay_inside_of_failing_stores :
    (failing "disk full").map Fault.muted = (failing "no such table").map Fault.muted ∧
      replies { opening TimedCache.empty with faults := failing "disk full" } longSession =
        replies { opening TimedCache.empty with faults := failing "no such table" } longSession ∧
      (replies { opening TimedCache.empty with faults := failing "disk full" } longSession).map (·.status) =
        [500, 200, 201, 200, 500, 500, 200] := by
  have alike : (failing "disk full").map Fault.muted = (failing "no such table").map Fault.muted := by decide +kernel
  exact ⟨alike, texts_stay_inside _ alike longSession, by decide +kernel⟩

end Http
end PickupPoint
