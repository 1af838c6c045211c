/-
Calls that take turns.

`Progress` says where a call stands between two of its steps, and `Progress.advance` takes the next one: a look at the
store, a transaction, a reading of the clock or a request to the cache. In a `Pool` calls enter at any time and take
their steps in any order, and all that is around the store may become something else between two steps.

A call that nothing comes between does what `Call.perform` does (`finishes_start`), so a session is one run of a pool
(`session_is_run`).
-/
import Mathlib.Logic.Function.Iterate
import PickupPoint.Service.Call
import PickupPoint.Proofs.Laws

namespace PickupPoint

open Act

variable {σ κ α β : Type}

/-! ## Steps of a call -/

/-- whose acceptance it is: a call's own, or that of a record with an id, between what an import came to and what it
has left -/
inductive Origin where
  | own
  | record (id : Nat) (r : ImportResult) (left : List (Except RejectedRecord Acceptance))

/-- where a call stands -/
inductive Progress where
  | checking (a : Acceptance) (origin : Origin)
  | storing (o : Order) (origin : Origin)
  | dropping (o : Order) (origin : Origin)
  | importing (r : ImportResult) (left : List (Except RejectedRecord Acceptance))
  | reclaiming (id : Nat)
  | timing (userId : Nat) (action : Action) (ids : List Nat)
  | processing (userId : Nat) (action : Action) (ids : List Nat) (now : Instant)
  /-- histories to drop before a reply -/
  | clearing (ids : List Nat) (reply : Reply)
  | recalling (id : Nat)
  | reading (id : Nat)
  | keeping (id : Nat) (history : List HistoryEntry)
  /-- a question with a single step -/
  | asking (c : Call)
  | ended (r : Except Halt Reply)

def Origin.accepted (o : Order) : Origin → Progress
  | .own => .ended (.ok (.order o))
  | .record _ r left => .importing r.addImported left

def Origin.refused (e : Error) : Origin → Progress
  | .own => .ended (.error (.error e))
  | .record id r left => .importing (r.addError id) left

/-- a step of an acceptance, which its refusal ends -/
def Origin.proceed (origin : Origin) (act : Act σ κ α) (next : α → Progress) : Act σ κ Progress := do
  match ← attempt act with
  | .ok a => return next a
  | .error e => return origin.refused e

namespace Progress

def start : Call → Progress
  | .accept a => .checking a .own
  | .reclaim id => .reclaiming id
  | .process userId action ids => .timing userId action ids
  | .importAll records => .importing .none records
  | .orderHistory id => .recalling id
  | c => .asking c

variable [OrderStore σ] [HistoryCache κ]

def advance : Progress → Act σ κ Progress
  | .checking a origin => origin.proceed (checkAcceptance a) (.storing · origin)
  | .storing o origin => origin.proceed (storeAccepted o) fun _ => .dropping o origin
  | .dropping o origin => origin.proceed (dropHistory o.id) fun _ => origin.accepted o
  | .importing r [] => return .ended (.ok (.imported r))
  | .importing r (.ok a :: left) => return .checking a (.record a.orderId r left)
  | .importing r (.error rejected :: left) => do
    noteFailure rejected.cause
    return .importing (r.addError rejected.orderId) left
  | .reclaiming id => do
    storeReclaimed id
    return .clearing [id] (.status id .deleted)
  | .timing userId action ids => do
    let now ← readClock
    return .processing userId action ids now
  | .processing userId action ids now => do
    match ← attempt (transaction (ids.mapM (applyInBatch userId action now))) with
    | .ok outcomes =>
      noteBatch outcomes
      return .clearing (doneIds outcomes) (.batch ⟨doneIds outcomes, failedIds outcomes⟩)
    | .error e =>
      noteFailure e
      return .ended (.ok (.batch ⟨[], ids⟩))
  | .clearing [] reply => return .ended (.ok reply)
  | .clearing (id :: ids) reply => do
    dropHistory id
    return .clearing ids reply
  | .recalling id => do
    match ← cachedHistory id with
    | some history => return .ended (.ok (.history history))
    | none => return .reading id
  | .reading id => do
    let history ← recordedHistory id
    return .keeping id history
  | .keeping id history => do
    keepHistory id history
    return .ended (.ok (.history history))
  | .asking c => do
    let reply ← c.perform
    return .ended (.ok reply)
  | .ended r => return .ended r

/-- the next step; a halt ends the call -/
def step (p : Progress) (s : Site σ κ) : Progress × Site σ κ :=
  match p.advance s with
  | (.ok p', s') => (p', s')
  | (.error h, s') => (.ended (.error h), s')

end Progress

/-- calls in progress, and the site that they share -/
structure Pool (σ κ : Type) where
  site : Site σ κ
  calls : List Progress

inductive Move (σ κ : Type) where
  | enter (c : Call)
  | step (i : Nat)
  /-- all but the store becomes as it is on a site -/
  | shift (s : Site σ κ)

namespace Pool

variable [OrderStore σ] [HistoryCache κ]

def step (p : Pool σ κ) : Move σ κ → Pool σ κ
  | .enter c => { p with calls := p.calls ++ [.start c] }
  | .step i =>
    match p.calls[i]? with
    | none => p
    | some q => ⟨(q.step p.site).2, p.calls.set i (q.step p.site).1⟩
  | .shift s => { p with site := { s with store := p.site.store } }

def run (p : Pool σ κ) (moves : List (Move σ κ)) : Pool σ κ := moves.foldl step p

end Pool

/-! ## What a call has left to do -/

section Rest

variable [OrderStore σ] [HistoryCache κ]

/-- what follows on an acceptance -/
def Origin.finish (act : Act σ κ Order) : Origin → Act σ κ Reply
  | .own => do return .order (← act)
  | .record id r left => do
    match ← attempt act with
    | .ok _ => return .imported (← left.foldlM importRecord r.addImported)
    | .error _ => return .imported (← left.foldlM importRecord (r.addError id))

namespace Progress

/-- all steps that are left, at once -/
def rest : Progress → Act σ κ Reply
  | .checking a origin => origin.finish (accept a)
  | .storing o origin => origin.finish do
    storeAccepted o
    dropHistory o.id
    return o
  | .dropping o origin => origin.finish do
    dropHistory o.id
    return o
  | .importing r left => do return .imported (← left.foldlM importRecord r)
  | .reclaiming id => do return .status id (← reclaim id)
  | .timing userId action ids => do return .batch (← process userId action ids)
  | .processing userId action ids now => do
    match ← attempt (transaction (ids.mapM (applyInBatch userId action now))) with
    | .ok outcomes =>
      noteBatch outcomes
      (doneIds outcomes).forM dropHistory
      return .batch ⟨doneIds outcomes, failedIds outcomes⟩
    | .error e =>
      noteFailure e
      return .batch ⟨[], ids⟩
  | .clearing ids reply => do
    ids.forM dropHistory
    return reply
  | .recalling id => do return .history (← orderHistory id)
  | .reading id => do
    let history ← recordedHistory id
    keepHistory id history
    return .history history
  | .keeping id history => do
    keepHistory id history
    return .history history
  | .asking c => c.perform
  | .ended r => fun s => (r, s)

theorem rest_start (c : Call) : (start c).rest = (c.perform : Act σ κ Reply) := by
  cases c <;> rfl

theorem finish_run (origin : Origin) (act : Act σ κ Order) (s : Site σ κ) :
    origin.finish act s = match act s with
      | (.ok o, s') => (origin.accepted o).rest s'
      | (.error (.error e), s') => (origin.refused e).rest s'
      | (.error (.panic text), s') => (.error (.panic text), s') := by
  cases origin with
  | own =>
    show (do return .order (← act) : Act σ κ Reply) s = _
    rw [bind_run]
    rcases act s with ⟨(_ | _) | _, s'⟩ <;> rfl
  | record id r left =>
    show (do
      match ← attempt act with
      | .ok _ => return .imported (← left.foldlM importRecord r.addImported)
      | .error _ => return .imported (← left.foldlM importRecord (r.addError id)) : Act σ κ Reply) s = _
    rw [bind_run, attempt_run]
    rcases act s with ⟨(_ | _) | _, s'⟩ <;> rfl

/-- A step of an acceptance, and what is left after it. -/
theorem proceed_rest {origin : Origin} {act : Act σ κ α} {next : α → Progress} {f : α → Act σ κ Order}
    (h : ∀ a, (next a).rest = origin.finish (f a)) :
    (origin.proceed act next >>= rest) = origin.finish (act >>= f) := by
  funext s
  unfold Origin.proceed
  rw [finish_run, bind_run, bind_run, bind_run, attempt_run]
  rcases act s with ⟨(e | text) | a, s'⟩
  · rfl
  · rfl
  · show (next a).rest s' = _
    rw [h a, finish_run]

theorem advance_rest (p : Progress) : (p.advance >>= rest) = (p.rest : Act σ κ Reply) := by
  cases p with
  | checking a origin => exact proceed_rest fun o => rfl
  | storing o origin => exact proceed_rest fun _ => rfl
  | dropping o origin =>
    refine proceed_rest fun _ => ?_
    funext s; rw [finish_run]; rfl
  | importing r left =>
    rcases left with _ | ⟨rejected | a, left⟩
    · rfl
    · rfl
    · simp only [advance, rest, pure_bind, List.foldlM_cons, importRecord, bind_assoc]
      funext s
      rw [finish_run, bind_run, attempt_run]
      rcases accept a s with ⟨(_ | _) | _, s'⟩ <;> rfl
  | clearing ids reply =>
    cases ids with
    | nil => rfl
    | cons id ids => simp only [advance, rest, List.forM, bind_assoc, pure_bind]
  | processing userId action ids now =>
    simp only [advance, rest, bind_assoc]
    congr 1; funext r
    cases r <;> simp only [bind_assoc, pure_bind] <;> rfl
  | recalling id =>
    simp only [advance, rest, orderHistory, bind_assoc]
    congr 1; funext r
    cases r <;> simp only [bind_assoc, pure_bind] <;> rfl
  | reading id => simp only [advance, rest, bind_assoc, pure_bind]
  | keeping id history => simp only [advance, rest, bind_assoc, pure_bind]; rfl
  | reclaiming id => simp only [advance, rest, reclaim, List.forM, bind_assoc, pure_bind]
  | timing userId action ids =>
    simp only [advance, rest, process, bind_assoc, pure_bind]
    congr 1; funext now
    congr 1; funext r
    cases r <;> simp only [bind_assoc, pure_bind]
  | asking c => simp only [advance, rest, bind_assoc, pure_bind]; exact bind_pure _
  | ended r => rfl

/-! ## A call alone -/

/-- Nothing coming between, the call comes to the end that its steps have at once. -/
def Finishes (σ κ : Type) [OrderStore σ] [HistoryCache κ] (p : Progress) : Prop :=
  ∀ s : Site σ κ, ∃ n, (fun x : Progress × Site σ κ => x.1.step x.2)^[n] (p, s) = (.ended (p.rest s).1, (p.rest s).2)

/-- wherever the act leads, the call finishes -/
def Leads (act : Act σ κ Progress) : Prop :=
  ∀ (s : Site σ κ) p s', act s = (.ok p, s') → Finishes σ κ p

theorem leads_pure {p : Progress} (h : Finishes σ κ p) : Leads (pure p : Act σ κ Progress) := by
  intro s q s' hq; cases hq; exact h

theorem leads_bind {act : Act σ κ α} {f : α → Act σ κ Progress} (h : ∀ a, Leads (f a)) : Leads (act >>= f) := by
  intro s p s' hp
  rw [bind_run] at hp
  rcases hr : act s with ⟨halt | a, s₁⟩ <;> rw [hr] at hp
  · cases hp
  · exact h a s₁ p s' hp

theorem finishes_ended (r : Except Halt Reply) : Finishes σ κ (.ended r) := fun _ => ⟨0, rfl⟩

theorem finishes_of_leads {p : Progress} (h : Leads (p.advance : Act σ κ Progress)) : Finishes σ κ p := by
  intro s
  rw [← advance_rest p, bind_run]
  rcases hr : p.advance s with ⟨halt | p', s'⟩
  · exact ⟨1, by simp [step, hr]⟩
  · obtain ⟨n, hn⟩ := h s p' s' hr s'
    refine ⟨n + 1, ?_⟩
    rw [Function.iterate_succ_apply]
    simp only [step, hr]
    exact hn

theorem finishes_clearing (ids : List Nat) (reply : Reply) : Finishes σ κ (.clearing ids reply) := by
  induction ids with
  | nil => exact finishes_of_leads (leads_pure (finishes_ended _))
  | cons id ids ih => exact finishes_of_leads (leads_bind fun _ => leads_pure ih)

theorem leads_proceed {origin : Origin} {act : Act σ κ α} {next : α → Progress} (hn : ∀ a, Finishes σ κ (next a))
    (hr : ∀ e, Finishes σ κ (origin.refused e)) : Leads (origin.proceed act next) := by
  refine leads_bind fun r => ?_
  cases r with
  | ok a => exact leads_pure (hn a)
  | error e => exact leads_pure (hr e)

theorem finishes_checking (a : Acceptance) {origin : Origin} (ha : ∀ o, Finishes σ κ (origin.accepted o))
    (hr : ∀ e, Finishes σ κ (origin.refused e)) : Finishes σ κ (.checking a origin) := by
  refine finishes_of_leads (leads_proceed (fun o => ?_) hr)
  refine finishes_of_leads (leads_proceed (fun _ => ?_) hr)
  exact finishes_of_leads (leads_proceed (fun _ => ha o) hr)

theorem finishes_importing (r : ImportResult) (left : List (Except RejectedRecord Acceptance)) :
    Finishes σ κ (.importing r left) := by
  induction left generalizing r with
  | nil => exact finishes_of_leads (leads_pure (finishes_ended _))
  | cons record left ih =>
    cases record with
    | error rejected => exact finishes_of_leads (leads_bind fun _ => leads_pure (ih _))
    | ok a => exact finishes_of_leads (leads_pure (finishes_checking a (fun _ => ih _) fun _ => ih _))

theorem finishes_start (c : Call) : Finishes σ κ (start c) := by
  have asking : Finishes σ κ (.asking c) := finishes_of_leads (leads_bind fun _ => leads_pure (finishes_ended _))
  cases c with
  | accept a => exact finishes_checking a (fun _ => finishes_ended _) fun _ => finishes_ended _
  | reclaim id => exact finishes_of_leads (leads_bind fun _ => leads_pure (finishes_clearing _ _))
  | importAll records => exact finishes_importing _ records
  | process userId action ids =>
    refine finishes_of_leads (leads_bind fun now => leads_pure (finishes_of_leads (leads_bind fun r => ?_)))
    cases r with
    | ok outcomes => exact leads_bind fun _ => leads_pure (finishes_clearing _ _)
    | error e => exact leads_bind fun _ => leads_pure (finishes_ended _)
  | orderHistory id =>
    refine finishes_of_leads (leads_bind fun r => ?_)
    cases r with
    | some history => exact leads_pure (finishes_ended _)
    | none =>
      refine leads_pure (finishes_of_leads (leads_bind fun history => leads_pure (finishes_of_leads ?_)))
      exact leads_bind fun _ => leads_pure (finishes_ended _)
  | list | returns | scroll | history | get => exact asking

end Progress

namespace Pool

/-- steps of the last call -/
theorem run_steps (s : Site σ κ) (before : List Progress) (q : Progress) (n : Nat) :
    (Pool.mk s (before ++ [q])).run (List.replicate n (.step before.length)) =
      let x := (fun x : Progress × Site σ κ => x.1.step x.2)^[n] (q, s)
      ⟨x.2, before ++ [x.1]⟩ := by
  induction n generalizing s q with
  | zero => rfl
  | succ n ih =>
    have hstep : (Pool.mk s (before ++ [q])).step (.step before.length) =
        ⟨(q.step s).2, before ++ [(q.step s).1]⟩ := by
      simp [step]
    rw [List.replicate_succ, Function.iterate_succ_apply]
    show run (step _ _) _ = _
    rw [hstep, ih]

theorem call_is_run (p : Pool σ κ) (c : Call) : ∃ moves, (p.run moves).site = c.step p.site := by
  obtain ⟨n, hn⟩ := @Progress.finishes_start σ κ _ _ c p.site
  refine ⟨.enter c :: List.replicate n (.step p.calls.length), ?_⟩
  show (run (Pool.mk p.site (p.calls ++ [.start c])) _).site = _
  rw [run_steps, hn, Progress.rest_start]
  rfl

/-- What a session leaves, a pool can come to. -/
theorem session_is_run (p : Pool σ κ) (calls : List Call) : ∃ moves, (p.run moves).site = Call.run p.site calls := by
  induction calls generalizing p with
  | nil => exact ⟨[], rfl⟩
  | cons c calls ih =>
    obtain ⟨first, hfirst⟩ := call_is_run p c
    obtain ⟨others, hothers⟩ := ih (p.run first)
    refine ⟨first ++ others, ?_⟩
    unfold run at hothers ⊢
    rw [List.foldl_append, hothers]
    exact congrArg (Call.run · calls) hfirst

end Pool

end Rest

end PickupPoint
