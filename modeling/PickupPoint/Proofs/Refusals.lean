/-
Which refusals are counted.

Whatever the store, the cache and the faults: an act of the service that is refused has counted one failure, under the
code of its refusal, and one that is not has counted none (`Reckoned`). An error that a client is answered has thus been
counted once if it comes from the service. But a parcel whose price does not read is refused before the service is
reached, and nobody counts that (`counted_once_iff`), where an import does for the same record.

A handler that breaks off is answered for as for an error inside the service, but is none and is not counted. It does so
only where a fault panics or the cache does.
-/
import PickupPoint.Http.Route
import PickupPoint.Proofs.Calls

namespace PickupPoint

/-- a cache may panic so -/
def HistoryCache.Panics (κ : Type) [HistoryCache κ] (text : String) : Prop :=
  ∃ (key : String) (now : Instant) (c : κ), (get key now c).1 = .error (.panic text) ∨
    (∃ value ttl, (set key value ttl now c).1 = .error (.panic text)) ∨ (delete key now c).1 = .error (.panic text)

namespace Act

variable {σ κ α β γ : Type} [HistoryCache κ]

/-! ## The law -/

/-- A refusal is counted, and no other failure is. A panic comes from a fault or from the cache. -/
structure Reckoned (s : Site σ κ) (h : Option Halt) (s' : Site σ κ) : Prop where
  failures : s'.metrics.failures = (tally s.metrics h).failures
  effects : Fault.effects s'.faults = Fault.effects s.faults
  source : ∀ text, h = some (.panic text) → .panic text ∈ Fault.effects s.faults ∨ HistoryCache.Panics κ text

instance : Composes (@Reckoned σ κ _) where
  comp {s₁ s₂ s₃ h} h₁ h₂ := by
    have same : s₂.metrics.failures = s₁.metrics.failures := h₁.failures
    refine ⟨h₂.failures.trans ?_, h₂.effects.trans h₁.effects, fun text ht => ?_⟩
    · rcases h with _ | _ | _ <;> simp [tally, Metrics.countFailure, same]
    · exact h₁.effects ▸ h₂.source text ht

namespace Obeys

variable {act : Act σ κ α} {s : Site σ κ} {P : α → σ → Prop}

theorem reckoned (h : Obeys Within act s P) (hr : ∀ e, halt? (act s).1 ≠ some (.error e)) :
    Obeys Reckoned act s P := by
  refine ⟨⟨?_, h.law.effects, fun text ht => .inl (h.law.calm text ht)⟩, h.answer⟩
  have quiet : tally s.metrics (halt? (act s).1) = s.metrics := by
    unfold tally
    split
    · rename_i e he; exact absurd he (hr e)
    · rfl
  rw [quiet, h.law.metrics]

theorem reckoned_pure {a : α} (h : P a s.store) : Obeys Reckoned (Pure.pure a : Act σ κ α) s P :=
  (Obeys.pure h).reckoned nofun

theorem reckoned_attempt (h : Obeys Within act s P) :
    Obeys Reckoned (Act.attempt act) s fun r m => ∀ a, r = .ok a → P a m :=
  h.attempt.reckoned (attempt_granted act s)

theorem reckoned_counted (h : Obeys Within act s P) : Obeys Reckoned (Act.counted act) s P := by
  obtain ⟨law, answer⟩ := h
  constructor <;> rw [counted_run] <;> rcases hr : act s with ⟨(e | text) | a, s'⟩ <;> rw [hr] at law answer
  · exact ⟨congrArg (fun m : Metrics => (m.countFailure e.code).failures) law.metrics, law.effects, nofun⟩
  · exact ⟨congrArg Metrics.failures law.metrics, law.effects, fun text ht => .inl (law.calm text ht)⟩
  · exact ⟨congrArg Metrics.failures law.metrics, law.effects, nofun⟩
  · nofun
  · nofun
  · exact answer

theorem reckoned_fail (e : Error) : Obeys Reckoned (Act.fail e) s P := ⟨⟨rfl, rfl, nofun⟩, nofun⟩

end Obeys

end Act

open Act

variable {σ κ α : Type} {s : Site σ κ}

/-! ## Scopes -/

/-- An operation on the store alone may be refused, and then the act is. -/
theorem atStore_within (op : Instant → Access σ Unit) (s : Site σ κ) :
    Within s (halt? ((atStore op s).1.mapError .error)) (atStore op s).2 := by
  have law : Obeys Within (onStore op) s fun _ _ => True := Obeys.onStore fun _ _ _ _ => trivial
  have same := law.law
  rw [onStore_run] at same
  exact same

section Calls

variable [OrderStore σ]

theorem inTransaction_within {act : Act σ κ α} (h : ∀ s, Obeys Within act s fun _ _ => True) (s : Site σ κ) :
    Within s (halt? (inTransaction act id s).1.2) (inTransaction act id s).2 := by
  have opened := atStore_within OrderStore.begin s
  unfold inTransaction
  rcases hb : atStore OrderStore.begin s with ⟨_ | _, s₁⟩ <;> rw [hb] at opened
  · exact opened
  have worked := (h s₁).law
  dsimp only
  rcases hw : act s₁ with ⟨halt | a, s₂⟩ <;> rw [hw] at worked
  · exact Composes.comp opened (Writes.write _ worked)
  have closed := atStore_within (fun _ => OrderStore.commit s.store) s₂
  dsimp only [id]
  rcases hc : atStore (fun _ => OrderStore.commit s.store) s₂ with ⟨_ | _, s₃⟩ <;> rw [hc] at closed <;>
    exact Composes.comp opened (Composes.comp worked closed)

theorem transaction_within {act : Act σ κ α} (h : ∀ s, Obeys Within act s fun _ _ => True) :
    Obeys Within (transaction act) s fun _ _ => True := by
  refine (Obeys.arrive_any .begin false).bind fun _ s₁ _ _ => ⟨?_, fun _ _ => trivial⟩
  exact inTransaction_within (fun s => (h s).closedAt_any .commit false) s₁

theorem appendHistory_within (id : Nat) (status : Status) :
    Obeys Within (appendHistory id status) s fun _ _ => True :=
  Obeys.call (by decide) fun _ _ _ _ => trivial

theorem appendEvent_within (t : EventType) (actor : Actor) (o : Order) (status : Status) :
    Obeys Within (appendEvent t actor o status) s fun _ _ => True := by
  refine Obeys.newEventId.bind fun id s₁ _ _ => Obeys.readClock.bind fun time s₂ _ _ => ?_
  exact Obeys.call (by decide) fun _ _ _ _ => trivial

end Calls

variable [HistoryCache κ]

/-- a call of the store whose refusal is counted -/
theorem asked_reckoned {p : Point} (hp : p ≠ .commit) (op : Instant → Access σ α) :
    Obeys Reckoned (counted (reachedAt p (onStore op))) s fun _ _ => True := by
  have called : Obeys Within (reachedAt p (onStore op)) s fun _ _ => True := Obeys.call hp fun _ _ _ _ => trivial
  exact called.reckoned_counted

theorem check_reckoned (r : Except Error α) : Obeys Reckoned (counted (ofExcept r)) s fun _ _ => True := by
  have checked : Obeys Within (Act.ofExcept r) s fun _ _ => True := Obeys.ofExcept fun _ _ => trivial
  exact checked.reckoned_counted

/-! ## The cache -/

theorem askCache_reckoned {p : Point} (hp : p ≠ .commit) {op : Instant → CacheAccess κ α}
    (loud : ∀ now c text, (op now c).1 = .error (.panic text) → HistoryCache.Panics κ text) :
    Obeys Reckoned (askCache p op) s fun _ _ => True := by
  have met : Obeys Within (arrive p false) s fun _ m => m = s.store := Obeys.arrive false hp
  refine met.reckoned_attempt.bind fun r s₁ _ _ => ?_
  split
  · refine ⟨?_, fun _ _ => trivial⟩
    rw [onCache_run]
    rcases hr : (op s₁.clock.current s₁.cache).1 with (_ | text) | a
    · exact ⟨rfl, rfl, nofun⟩
    · exact ⟨rfl, rfl, by rintro _ ⟨⟩; exact .inr (loud _ _ text hr)⟩
    · exact ⟨rfl, rfl, nofun⟩
  · exact Obeys.reckoned_pure trivial

theorem cachedHistory_reckoned (id : Nat) : Obeys Reckoned (cachedHistory id) s fun _ _ => True :=
  (askCache_reckoned (by decide) fun _ _ _ panics => ⟨_, _, _, .inl panics⟩).bind fun _ _ _ _ =>
    Obeys.reckoned_pure trivial

theorem keepHistory_reckoned (id : Nat) (history : List HistoryEntry) :
    Obeys Reckoned (keepHistory id history) s fun _ _ => True := by
  have seen : Obeys Reckoned (get : Act σ κ (Site σ κ)) s fun _ _ => True :=
    ⟨⟨rfl, rfl, nofun⟩, fun _ _ => trivial⟩
  refine seen.bind fun _ s₁ _ _ => ?_
  exact (askCache_reckoned (by decide) fun _ _ _ panics => ⟨_, _, _, .inr (.inl ⟨_, _, panics⟩)⟩).bind fun _ _ _ _ =>
    Obeys.reckoned_pure trivial

theorem dropHistory_reckoned (id : Nat) : Obeys Reckoned (dropHistory id) s fun _ _ => True :=
  (askCache_reckoned (by decide) fun _ _ _ panics => ⟨_, _, _, .inr (.inr panics)⟩).bind fun _ _ _ _ =>
    Obeys.reckoned_pure trivial

/-! ## The service -/

variable [OrderStore σ]

theorem checkAcceptance_reckoned (a : Acceptance) : Obeys Reckoned (checkAcceptance a) s fun _ _ => True := by
  unfold checkAcceptance
  refine (Obeys.readClock.reckoned nofun).bind fun now s₁ _ _ => ?_
  dsimp only
  split_ifs
  · rw [fail_bind]; exact Obeys.reckoned_fail _
  refine (check_reckoned _).bind fun package s₂ _ _ => ?_
  have looked : Obeys Within (storedOrder a.orderId) s₂ fun _ _ => True :=
    Obeys.call (by decide) fun _ _ _ _ => trivial
  refine looked.reckoned_attempt.bind fun r s₃ _ _ => ?_
  split
  · rw [fail_bind]; exact Obeys.reckoned_fail _
  · refine (check_reckoned _).bind fun _ s₄ _ _ => (check_reckoned _).bind fun _ s₅ _ _ => ?_
    exact Obeys.reckoned_pure trivial
  · rw [fail_bind]; exact Obeys.reckoned_fail _

/-- A transaction whose refusal is counted, and its event once it is through. -/
theorem booked_reckoned {act : Act σ κ Unit} (h : ∀ s, Obeys Within act s fun _ _ => True) (t : EventType) :
    Obeys Reckoned (do counted (transaction act); noteEvent t) s fun _ _ => True := by
  refine (transaction_within h).reckoned_counted.bind fun _ s₁ _ _ => ?_
  exact ⟨⟨rfl, rfl, nofun⟩, fun _ _ => trivial⟩

theorem storeAccepted_reckoned (o : Order) : Obeys Reckoned (storeAccepted o) s fun _ _ => True := by
  refine booked_reckoned (fun s => ?_) _
  have inserted : Obeys Within (insertOrder o) s fun _ _ => True := Obeys.call (by decide) fun _ _ _ _ => trivial
  have stored : Obeys Within (insertNew o) s fun _ _ => True := by
    refine inserted.attempt.bind fun r s₁ _ _ => ?_
    split
    · exact Obeys.pure trivial
    · exact Obeys.refuse _
    · exact Obeys.refuse _
  refine stored.bind fun _ s₁ _ _ => (appendHistory_within _ _).bind fun _ s₂ _ _ => ?_
  exact appendEvent_within _ _ _ _

theorem storeReclaimed_reckoned (id : Nat) : Obeys Reckoned (storeReclaimed id) s fun _ _ => True := by
  refine booked_reckoned (fun s => ?_) _
  have found : Obeys Within (findOrder id) s fun _ _ => True := Obeys.call (by decide) fun _ _ _ _ => trivial
  refine found.bind fun o s₁ _ _ => ?_
  have checked : Obeys Within (checkReclaim o) s₁ fun _ _ => True := by
    unfold checkReclaim
    split
    · exact Obeys.refuse _
    · exact Obeys.pure trivial
    · refine Obeys.readClock.bind fun now s₂ _ _ => ?_
      split_ifs
      · exact Obeys.refuse _
      · exact Obeys.pure trivial
  refine checked.bind fun _ s₂ _ _ => (appendHistory_within _ _).bind fun _ s₃ _ _ => ?_
  have deleted : Obeys Within (deleteOrder id) s₃ fun _ _ => True := Obeys.call (by decide) fun _ _ _ _ => trivial
  exact deleted.bind fun _ s₄ _ _ => appendEvent_within _ _ _ _

theorem listOrders_reckoned (userId : Nat) (inPickupPoint : Bool) (last page limit : Nat) :
    Obeys Reckoned (listOrders userId inPickupPoint last page limit) s fun _ _ => True := by
  unfold listOrders
  split_ifs
  · rw [fail_bind]; exact Obeys.reckoned_fail _
  · exact (asked_reckoned (by decide) _).bind fun _ _ _ _ => Obeys.reckoned_pure trivial

theorem listReturns_reckoned (page limit : Nat) : Obeys Reckoned (listReturns page limit) s fun _ _ => True :=
  (asked_reckoned (by decide) _).bind fun _ _ _ _ => Obeys.reckoned_pure trivial

theorem scrollOrders_reckoned (userId cursor limit : Nat) :
    Obeys Reckoned (scrollOrders userId cursor limit) s fun _ _ => True :=
  (asked_reckoned (by decide) _).bind fun _ _ _ _ => Obeys.reckoned_pure trivial

theorem accept_reckoned (a : Acceptance) : Obeys Reckoned (accept a) s fun _ _ => True := by
  refine (checkAcceptance_reckoned a).bind fun o s₁ _ _ => (storeAccepted_reckoned o).bind fun _ s₂ _ _ => ?_
  exact (dropHistory_reckoned o.id).bind fun _ _ _ _ => Obeys.reckoned_pure trivial

theorem reclaim_reckoned (id : Nat) : Obeys Reckoned (reclaim id) s fun _ _ => True := by
  refine (storeReclaimed_reckoned id).bind fun _ s₁ _ _ => ?_
  exact (dropHistory_reckoned id).bind fun _ _ _ _ => Obeys.reckoned_pure trivial

theorem orderHistory_reckoned (id : Nat) : Obeys Reckoned (orderHistory id) s fun _ _ => True := by
  refine (cachedHistory_reckoned id).bind fun r s₁ _ _ => ?_
  cases r with
  | some history => exact Obeys.reckoned_pure trivial
  | none =>
    have read : Obeys Reckoned (recordedHistory id) s₁ fun _ _ => True := by
      refine (asked_reckoned (by decide) _).bind fun history s₂ _ _ => ?_
      split_ifs
      · rw [fail_bind]; exact Obeys.reckoned_fail _
      · exact Obeys.reckoned_pure trivial
    refine read.bind fun history s₂ _ _ => ?_
    exact (keepHistory_reckoned id history).bind fun _ _ _ _ => Obeys.reckoned_pure trivial

/-- a call that is refused as a whole or not at all -/
def Call.IsSingle : Call → Prop
  | .process .. | .importAll .. => False
  | _ => True

/-- A call that is refused has counted that, and one that is not has counted no failure. -/
theorem perform_reckoned {c : Call} (single : c.IsSingle) (s : Site σ κ) :
    Obeys Reckoned c.perform s fun _ _ => True := by
  cases c with
  | accept a => exact (accept_reckoned a).bind fun _ _ _ _ => Obeys.reckoned_pure trivial
  | reclaim id => exact (reclaim_reckoned id).bind fun _ _ _ _ => Obeys.reckoned_pure trivial
  | orderHistory id => exact (orderHistory_reckoned id).bind fun _ _ _ _ => Obeys.reckoned_pure trivial
  | list => exact (listOrders_reckoned ..).bind fun _ _ _ _ => Obeys.reckoned_pure trivial
  | returns => exact (listReturns_reckoned ..).bind fun _ _ _ _ => Obeys.reckoned_pure trivial
  | scroll => exact (scrollOrders_reckoned ..).bind fun _ _ _ _ => Obeys.reckoned_pure trivial
  | history => exact (asked_reckoned (by decide) _).bind fun _ _ _ _ => Obeys.reckoned_pure trivial
  | get => exact (asked_reckoned (by decide) _).bind fun _ _ _ _ => Obeys.reckoned_pure trivial
  | process | importAll => exact single.elim

theorem ErrorCode.text_injective : Function.Injective ErrorCode.text := by
  intro c d h
  cases c <;> cases d <;> first | rfl | exact absurd h (by decide)

namespace Http

/-! ## Requests -/

/-- the route of a request, if one takes it -/
def Request.route? (r : Request) : Option Route := r.target.segments?.bind (Route.find? r.method)

/-- a route that hands over several orders at once, each of which may fail alone -/
def Route.IsBulk : Route → Prop
  | .processOrders | .importOrders => True
  | _ => False

/-- the parcel in the body of a request that hands one over, if it reads as one -/
def Request.parcel? (r : Request) : Option ParcelBody :=
  if r.route? = some .acceptOrder ∧ (r.contentType.bind MediaType.parse?).any MediaType.isJson ∧
      r.body.length ≤ bodyLimit then
    (Json.Tree.ofRunes? (Text.decode r.body)).bind (decodeParcel Json.maxLevels)
  else none

/-- It hands over a parcel whose price does not read. -/
def Request.Unpriced (r : Request) : Prop := ∃ p fault, r.parcel? = some p ∧ Decimal.parse p.price = .error fault

/-- The call of a request ends in a panic. -/
def Request.BreaksOff (r : Request) (s : Site σ κ) : Prop :=
  ∃ status c text, Demand.ofRequest r = .call status c ∧ (c.perform s).1 = .error (.panic text)

/-! ## Answers -/

def Response.status : Response → Nat
  | .json status _ | .text status _ _ | .plain status => status

/-- It is the answer to an error with a code. -/
def Response.Tells (x : Response) (c : ErrorCode) : Prop := ∃ e : Error, e.code = c ∧ x = ofError e

/-- How a request is answered, and which failures are counted by it. -/
structure CountedOnce (r : Request) (s : Site σ κ) : Prop where
  failure : ∀ c, (handle r s).1.Tells c →
    ∀ d, (handle r s).2.metrics.failures d = s.metrics.failures d + if d = c then 1 else 0
  success : (handle r s).1.status < 300 → (handle r s).2.metrics.failures = s.metrics.failures

theorem tells_ofError {e : Error} {c : ErrorCode} (h : (ofError e).Tells c) : c = e.code := by
  obtain ⟨e', rfl, same⟩ := h
  refine ErrorCode.text_injective ?_
  simp only [ofError, errorBody, Response.json.injEq, Json.object.injEq, List.cons.injEq, Prod.mk.injEq,
    Json.text.injEq] at same
  exact same.2.1.2.1.2.symm

/-! ## What requests ask for -/

/-- It is no refusal, and a call that it makes is refused as a whole or not at all. -/
def Demand.IsSettled : Demand → Prop
  | .call status c => status = 200 ∧ c.IsSingle
  | .refused _ => False
  | .metrics | .turnedAway _ => True

theorem ofId_settled {id : String} {c : Nat → Call} (single : ∀ id, (c id).IsSingle) : (Demand.ofId id c).IsSettled := by
  unfold Demand.ofId
  split
  · exact ⟨rfl, single _⟩
  · trivial

theorem ofCall?_settled {x : Option Call} (single : ∀ c, x = some c → c.IsSingle) : (Demand.ofCall? x).IsSettled := by
  rcases x with _ | c
  · trivial
  · exact ⟨rfl, single c rfl⟩

theorem single_bind {α : Type} {x : Option α} {f : α → Option Call} (h : ∀ a c, f a = some c → c.IsSingle) (c : Call)
    (hc : (x >>= f) = some c) : c.IsSingle := by
  rcases x with _ | a
  · cases hc
  · exact h a c hc

theorem single_some {c : Call} (h : c.IsSingle) (c' : Call) (hc : some c = some c') : c'.IsSingle :=
  Option.some.inj hc ▸ h

theorem ofRequest_route (r : Request) :
    Demand.ofRequest r = match r.route? with
      | some route => .ofRoute r route
      | none => .notFound := rfl

/-- What a body in JSON that is not too long asks for. -/
theorem ofBody_read {α : Type} {r : Request} (json : (r.contentType.bind MediaType.parse?).any MediaType.isJson)
    (small : r.body.length ≤ bodyLimit) (d : Json.Decoder α) (demand : α → Demand) :
    Demand.ofBody r d demand =
      ((Json.Tree.ofRunes? (Text.decode r.body)).bind (d Json.maxLevels)).elim .badRequest demand := by
  rw [Demand.ofBody, if_neg (not_not.2 json), if_neg (Nat.not_lt.2 small)]
  rcases (Json.Tree.ofRunes? (Text.decode r.body)).bind (d Json.maxLevels) with _ | a <;> rfl

/-- A request hands over a parcel, or it is settled what it asks for. -/
theorem demand_cases {r : Request} (single : ∀ route, r.route? = some route → ¬ route.IsBulk) :
    (∃ p, r.parcel? = some p ∧ Demand.ofRequest r = .ofParcel p) ∨
      (r.parcel? = none ∧ (Demand.ofRequest r).IsSettled) := by
  rw [ofRequest_route]
  rcases hr : r.route? with _ | route
  · exact .inr ⟨if_neg fun h => by simp [hr] at h, trivial⟩
  have elsewhere : route ≠ .acceptOrder → r.parcel? = none :=
    fun other => if_neg fun h => other (Option.some.inj (hr.symm.trans h.1))
  specialize single route hr
  cases route with
  | acceptOrder =>
    dsimp only [Demand.ofRoute, Request.parcel?]
    by_cases json : (r.contentType.bind MediaType.parse?).any MediaType.isJson
    · by_cases small : r.body.length ≤ bodyLimit
      · rw [if_pos ⟨hr, json, small⟩, ofBody_read json small]
        rcases (Json.Tree.ofRunes? (Text.decode r.body)).bind (decodeParcel Json.maxLevels) with _ | p
        · exact .inr ⟨rfl, trivial⟩
        · exact .inl ⟨p, rfl, rfl⟩
      · rw [if_neg fun h => small h.2.2, Demand.ofBody, if_neg (not_not.2 json), if_pos (Nat.not_le.1 small)]
        exact .inr ⟨rfl, trivial⟩
    · rw [if_neg fun h => json h.2.1, Demand.ofBody, if_pos json]
      exact .inr ⟨rfl, trivial⟩
  | importOrders | processOrders => exact absurd trivial single
  | getOrder id => exact .inr ⟨elsewhere nofun, ofId_settled fun _ => trivial⟩
  | reclaimOrder id => exact .inr ⟨elsewhere nofun, ofId_settled fun _ => trivial⟩
  | orderHistory id => exact .inr ⟨elsewhere nofun, ofId_settled fun _ => trivial⟩
  | metrics => exact .inr ⟨elsewhere nofun, trivial⟩
  | listOrders =>
    refine .inr ⟨elsewhere nofun, ofCall?_settled ?_⟩
    exact single_bind fun _ => single_bind fun _ => single_bind fun _ => single_bind fun _ => single_bind fun _ =>
      single_some trivial
  | scrollOrders =>
    refine .inr ⟨elsewhere nofun, ofCall?_settled ?_⟩
    exact single_bind fun _ => single_bind fun _ => single_bind fun _ => single_some trivial
  | returns =>
    refine .inr ⟨elsewhere nofun, ofCall?_settled ?_⟩
    exact single_bind fun _ => single_bind fun _ => single_some trivial
  | history =>
    refine .inr ⟨elsewhere nofun, ofCall?_settled ?_⟩
    exact single_bind fun _ => single_bind fun _ => single_some trivial

theorem route_of_parcel {r : Request} {p : ParcelBody} (parcel : r.parcel? = some p) : r.route? = some .acceptOrder := by
  unfold Request.parcel? at parcel
  split_ifs at parcel with h
  exact h.1

theorem ofRequest_parcel {r : Request} {p : ParcelBody} (parcel : r.parcel? = some p) :
    Demand.ofRequest r = .ofParcel p := by
  have single : ∀ route, r.route? = some route → ¬ route.IsBulk := by
    rintro _ found bulk
    rw [route_of_parcel parcel] at found
    rw [← Option.some.inj found] at bulk
    exact bulk
  rcases demand_cases single with ⟨p', parcel', asked⟩ | ⟨none, -⟩
  · rw [asked, Option.some.inj (parcel'.symm.trans parcel)]
  · cases none.symm.trans parcel

/-- A parcel with an unreadable price is refused without a trace. -/
theorem handle_unpriced {r : Request} {p : ParcelBody} {fault : Decimal.Fault} (parcel : r.parcel? = some p)
    (price : Decimal.parse p.price = .error fault) (s : Site σ κ) :
    handle r s = (ofError (badPrice p.price fault), s) := by
  rw [handle, ofRequest_parcel parcel, Demand.ofParcel, ParcelBody.acceptance, price]
  rfl

/-! ## What is counted -/

theorem status_ofError (e : Error) : 400 ≤ (ofError e).status := by
  show 400 ≤ statusOf e
  unfold statusOf
  split <;> omega

/-- The answer to an error that was counted. -/
theorem counted_of_error {r : Request} {s s' : Site σ κ} {e : Error} (handled : handle r s = (ofError e, s'))
    (reckoned : Reckoned s (some (.error e)) s') : CountedOnce r s := by
  constructor <;> rw [handled]
  · intro c tells d
    obtain rfl := tells_ofError tells
    show s'.metrics.failures d = _
    rw [show s'.metrics.failures = (s.metrics.countFailure e.code).failures from reckoned.failures]
    simp only [Metrics.countFailure]
    split_ifs <;> rfl
  · intro succeeds
    exact absurd (Nat.lt_of_lt_of_le succeeds (by decide)) (Nat.not_lt.2 (status_ofError e))

/-- An answer that tells of no error, and nothing was counted. -/
theorem counted_of_quiet {r : Request} {s s' : Site σ κ} {x : Response} (handled : handle r s = (x, s'))
    (quiet : ∀ c, ¬ x.Tells c) (same : s'.metrics.failures = s.metrics.failures) : CountedOnce r s := by
  constructor <;> rw [handled]
  · exact fun c tells => absurd tells (quiet c)
  · exact fun _ => same

/-- The answer to an error that was not counted. -/
theorem not_counted_of_same {r : Request} {s s' : Site σ κ} {e : Error} (handled : handle r s = (ofError e, s'))
    (same : s'.metrics.failures = s.metrics.failures) : ¬ CountedOnce r s := by
  intro counted
  have raised := counted.failure e.code (by rw [handled]; exact ⟨e, rfl, rfl⟩) e.code
  rw [handled, if_pos rfl] at raised
  rw [show (ofError e, s').2.metrics.failures = s.metrics.failures from same] at raised
  omega

theorem breaksOff_iff {r : Request} {s : Site σ κ} {status : Nat} {c : Call}
    (asked : Demand.ofRequest r = .call status c) : r.BreaksOff s ↔ ∃ text, (c.perform s).1 = .error (.panic text) := by
  constructor
  · rintro ⟨_, c', text, asked', panics⟩
    rw [asked] at asked'
    cases asked'
    exact ⟨text, panics⟩
  · rintro ⟨text, panics⟩
    exact ⟨status, c, text, asked, panics⟩

theorem counted_of_call {r : Request} {s : Site σ κ} {status : Nat} {c : Call}
    (asked : Demand.ofRequest r = .call status c) (fine : status < 300) (single : c.IsSingle) :
    CountedOnce r s ↔ ¬ r.BreaksOff s := by
  have law : Reckoned s (halt? (c.perform s).1) (c.perform s).2 := (perform_reckoned single s).law
  have handled : handle r s = answer (.call status c) s := by rw [handle, asked]
  rw [breaksOff_iff asked]
  rcases hr : c.perform s with ⟨(e | text) | reply, s'⟩ <;> rw [hr] at law <;> simp only [answer, hr] at handled
  · exact iff_of_true (counted_of_error handled law) (by rintro ⟨text, ⟨⟩⟩)
  · exact iff_of_false (not_counted_of_same (e := .internal text) handled law.failures) (not_not.2 ⟨text, rfl⟩)
  · refine iff_of_true (counted_of_quiet handled ?_ law.failures) (by rintro ⟨text, ⟨⟩⟩)
    rintro d ⟨e, -, same⟩
    have failed := status_ofError e
    rw [← same] at failed
    exact absurd (Nat.lt_of_lt_of_le fine (by decide)) (Nat.not_lt.2 failed)

theorem counted_of_settled {r : Request} {s : Site σ κ} (settled : (Demand.ofRequest r).IsSettled) :
    CountedOnce r s ↔ ¬ r.BreaksOff s := by
  have handled : handle r s = answer (.ofRequest r) s := rfl
  rcases asked : Demand.ofRequest r with ⟨status, c⟩ | e | _ | status <;> rw [asked] at settled handled
  · obtain ⟨rfl, single⟩ := settled
    exact counted_of_call asked (by decide) single
  · exact settled.elim
  · refine iff_of_true (counted_of_quiet handled ?_ rfl) ?_
    · rintro c ⟨e, -, ⟨⟩⟩
    · rintro ⟨_, _, _, called, -⟩
      cases asked.symm.trans called
  · refine iff_of_true (counted_of_quiet handled ?_ rfl) ?_
    · rintro c ⟨e, -, ⟨⟩⟩
    · rintro ⟨_, _, _, called, -⟩
      cases asked.symm.trans called

/-- A handler breaks off only where a fault panics or the cache does. -/
theorem breaksOff_source {r : Request} (single : ∀ route, r.route? = some route → ¬ route.IsBulk) {s : Site σ κ}
    (breaks : r.BreaksOff s) : ∃ text, .panic text ∈ Fault.effects s.faults ∨ HistoryCache.Panics κ text := by
  obtain ⟨status, c, text, asked, panics⟩ := breaks
  have one : c.IsSingle := by
    rcases demand_cases single with ⟨p, -, parcel⟩ | ⟨-, settled⟩
    · rw [asked, Demand.ofParcel] at parcel
      split at parcel <;> cases parcel
      trivial
    · rw [asked] at settled
      exact settled.2
  have law : Reckoned s (halt? (c.perform s).1) (c.perform s).2 := (perform_reckoned one s).law
  exact ⟨text, law.source text (by rw [panics]; rfl)⟩

/-- **Counted once.** Whatever the store, the cache, the faults and the request, on every route that is not a bulk one:
an error that is answered has been counted once, under its code, and with a success no failure has been counted, if and
only if the request hands over no parcel with an unreadable price and its handler does not break off. For such a parcel
the error is answered and nothing is counted. A handler breaks off only where a fault panics or the cache does. -/
theorem counted_once_iff (r : Request) (single : ∀ route, r.route? = some route → ¬ route.IsBulk) (s : Site σ κ) :
    (CountedOnce r s ↔ ¬ r.Unpriced ∧ ¬ r.BreaksOff s) ∧
      (r.Unpriced → ∃ e : Error, e.code = .invalidInput ∧ handle r s = (ofError e, s)) ∧
      (r.BreaksOff s → ∃ text, .panic text ∈ Fault.effects s.faults ∨ HistoryCache.Panics κ text) := by
  rw [← and_assoc]
  refine ⟨?_, breaksOff_source single⟩
  rcases demand_cases single with ⟨p, parcel, asked⟩ | ⟨none, settled⟩
  · have priced : r.Unpriced ↔ ∃ fault, Decimal.parse p.price = .error fault := by
      unfold Request.Unpriced
      rw [parcel]
      exact ⟨fun ⟨_, fault, same, h⟩ => ⟨fault, Option.some.inj same ▸ h⟩, fun ⟨fault, h⟩ => ⟨p, fault, rfl, h⟩⟩
    rw [priced]
    rcases price : Decimal.parse p.price with fault | value
    · have refused := handle_unpriced parcel price s
      exact ⟨iff_of_false (not_counted_of_same refused rfl) fun h => h.1 ⟨fault, rfl⟩, fun _ => ⟨_, rfl, refused⟩⟩
    · rw [Demand.ofParcel, ParcelBody.acceptance, price] at asked
      have readable : ¬ ∃ fault, (.ok value : Except Decimal.Fault Decimal) = .error fault := by rintro ⟨_, ⟨⟩⟩
      rw [counted_of_call asked (by decide) trivial, and_iff_right readable]
      exact ⟨Iff.rfl, fun h => absurd h readable⟩
  · have priced : ¬ r.Unpriced := by
      rintro ⟨p, fault, parcel, -⟩
      cases none.symm.trans parcel
    rw [counted_of_settled settled, and_iff_right priced]
    exact ⟨Iff.rfl, fun h => absurd h priced⟩

/-- a parcel of client 7 at a price that is no number -/
def oddParcel : Request where
  method := "POST"
  target := ⟨"/orders", ""⟩
  contentType := some "application/json"
  body := ("\x7b\"order_id\": 1, \"user_id\": 7, \"weight\": 2, \"price\": \"abc\", " ++
    "\"expires_at\": \"2999-01-01T00:00:00Z\", \"package\": \"box\"\x7d").toUTF8.toList

/-- Its client is told of an invalid input, and the counter of those stays at zero. -/
theorem odd_parcel_uncounted :
    (∀ route, oddParcel.route? = some route → ¬ route.IsBulk) ∧
      (handle oddParcel (opening TimedCache.empty)).1.Tells .invalidInput ∧
      (handle oddParcel (opening TimedCache.empty)).2.metrics.failures .invalidInput = 0 ∧
      ¬ CountedOnce oddParcel (opening TimedCache.empty) := by
  have text : (oddParcel.parcel?.map (·.price)) = some "abc" := by decide +kernel
  obtain ⟨p, parcel, abc⟩ := Option.map_eq_some_iff.1 text
  have unread : (Decimal.parse p.price).toBool = false := by rw [abc]; decide +kernel
  have single : ∀ route, oddParcel.route? = some route → ¬ route.IsBulk := by
    rintro _ found bulk
    rw [route_of_parcel parcel] at found
    rw [← Option.some.inj found] at bulk
    exact bulk
  rcases price : Decimal.parse p.price with fault | value <;> rw [price] at unread
  · have handled := handle_unpriced parcel price (opening TimedCache.empty)
    refine ⟨single, ?_, ?_, not_counted_of_same handled rfl⟩ <;> rw [handled]
    · exact ⟨_, rfl, rfl⟩
    · rfl
  · cases unread

/-- a look at order 1 -/
def lookUp : Request := ⟨"GET", ⟨"/orders/1", ""⟩, none, []⟩

/-- Where there is no such order, that is counted once. -/
theorem missing_order_counted :
    (∀ route, lookUp.route? = some route → ¬ route.IsBulk) ∧ CountedOnce lookUp (opening TimedCache.empty) ∧
      (handle lookUp (opening TimedCache.empty)).2.metrics.failures .orderNotFound = 1 := by
  have route : lookUp.route? = some (.getOrder "1") := by decide +kernel
  have single : ∀ route, lookUp.route? = some route → ¬ route.IsBulk := by
    rintro _ h bulk
    rw [← Option.some.inj (route.symm.trans h)] at bulk
    exact bulk
  have priced : ¬ lookUp.Unpriced := by
    rintro ⟨p, -, parcel, -⟩
    rw [Request.parcel?, if_neg (by rw [route]; rintro ⟨⟨⟩, -⟩)] at parcel
    cases parcel
  have read : (Text.readNat maxId (Target.segmentText "1")).toOption = some 1 := by decide +kernel
  have asked : Demand.ofRequest lookUp = .call 200 (.get 1) := by
    rw [ofRequest_route, route]
    show Demand.ofId "1" .get = _
    unfold Demand.ofId
    rcases h : Text.readNat maxId (Target.segmentText "1") with fault | id <;> rw [h] at read <;> cases read
    rfl
  have stays : ¬ lookUp.BreaksOff (opening TimedCache.empty) := by
    rw [breaksOff_iff asked]
    rintro ⟨text, panics⟩
    cases panics
  exact ⟨single, (counted_once_iff lookUp single _).1.2 ⟨priced, stays⟩, by decide +kernel⟩

end Http

end PickupPoint
