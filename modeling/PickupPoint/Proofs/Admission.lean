/-
Which parcels are accepted, and as what.

`Acceptance.checks` lists what is asked of a parcel, from what the courier says of it, the time and the orders before it.
The first check that fails decides how it is refused, and nothing is stored then (`judged_refused`). A parcel that passes
all of them is entered as an order with the surcharge of its package (`judged_passed`, `Memory.Enters`). The price is
judged by its value with the surcharge, so nothing depends on how a courier writes it.
-/
import PickupPoint.Proofs.Amounts
import PickupPoint.Proofs.Columns
import PickupPoint.Proofs.Steady
import PickupPoint.Proofs.Verdicts

namespace PickupPoint

open Act

/-! ## Checks -/

/-- the names that a package goes by -/
def Package.names : Package → List String
  | .bare => ["none", "", "unspecified"]
  | p => [p.text]

/-- the first of the checks that fails, by the code of its refusal -/
inductive FirstFails : List (Prop × ErrorCode) → ErrorCode → Prop
  | here {asked : Prop} {code : ErrorCode} {rest : List (Prop × ErrorCode)} (fails : ¬ asked) :
    FirstFails ((asked, code) :: rest) code
  | later {asked : Prop} {code code' : ErrorCode} {rest : List (Prop × ErrorCode)} (passes : asked)
    (fails : FirstFails rest code') : FirstFails ((asked, code) :: rest) code'

@[simp]
theorem firstFails_nil {code : ErrorCode} : ¬ FirstFails [] code := by
  intro h
  cases h

@[simp]
theorem firstFails_cons {asked : Prop} {code code' : ErrorCode} {rest : List (Prop × ErrorCode)} :
    FirstFails ((asked, code) :: rest) code' ↔ ¬ asked ∧ code = code' ∨ asked ∧ FirstFails rest code' := by
  constructor
  · intro h
    cases h with
    | here fails => exact .inl ⟨fails, rfl⟩
    | later passes h => exact .inr ⟨passes, h⟩
  · rintro (⟨fails, rfl⟩ | ⟨passes, h⟩)
    · exact .here fails
    · exact .later passes h

/-- Checks pass, or there is a first that fails. -/
theorem pass_or_firstFails (checks : List (Prop × ErrorCode)) :
    (∀ check ∈ checks, check.1) ∨ ∃ code, FirstFails checks code := by
  induction checks with
  | nil => exact .inl nofun
  | cons check rest ih =>
    obtain ⟨asked, code⟩ := check
    by_cases passes : asked
    · rcases ih with pass | ⟨code', fails⟩
      · exact .inl (List.forall_mem_cons.2 ⟨passes, pass⟩)
      · exact .inr ⟨code', .later passes fails⟩
    · exact .inr ⟨code, .here passes⟩

namespace Acceptance

/-- The weight does not compare as the limit of the package or more. -/
def Light (a : Acceptance) : Prop :=
  ∀ package : Package, a.package ∈ package.names → ∀ limit, package.weightLimit? = some limit → ¬ limit ≤ a.weight

/-- The price with the surcharge is so many hundredths, with twelve digits at most. -/
def Payable (a : Acceptance) : Prop :=
  ∀ package : Package, a.package ∈ package.names →
    ∃ n : ℕ, n < 10 ^ 12 ∧ a.price.value + package.surcharge = n / 100

/-- what is asked of a parcel, in order -/
def checks (a : Acceptance) (now : Instant) (m : Memory) : List (Prop × ErrorCode) :=
  [(now < a.expiresAt, .validationFailed),
    (∃ package : Package, a.package ∈ package.names, .invalidPackage),
    (m.orders.find? a.orderId = none, .orderAlreadyExists),
    (a.Light, .weightTooHeavy),
    (a.Payable, .invalidInput)]

end Acceptance

theorem Package.parse_ok_iff {raw : String} {p : Package} : Package.parse raw = .ok p ↔ raw ∈ p.names := by
  constructor
  · intro parsed
    unfold parse at parsed
    split_ifs at parsed with blank
    · cases parsed
      rcases blank with rfl | rfl <;> simp [names]
    · unfold ofText? at parsed
      split at parsed
      · rename_i found
        split at found <;> cases found <;> cases parsed <;> simp [names, text]
      · cases parsed
  · intro named
    cases p <;> simp only [names, text, List.mem_cons, List.not_mem_nil, or_false] at named
    · rcases named with rfl | rfl | rfl <;> rfl
    all_goals rw [named]; rfl

/-- A name is the name of one package. -/
theorem Package.forall_named {raw : String} {p : Package} (named : raw ∈ p.names) {P : Package → Prop} :
    (∀ other : Package, raw ∈ other.names → P other) ↔ P p := by
  constructor
  · exact fun all => all p named
  · intro holds other also
    rw [← parse_ok_iff] at named also
    exact Except.ok.inj (named.symm.trans also) ▸ holds

theorem Package.parse_code {raw : String} {e : Error} (h : Package.parse raw = .error e) : e.code = .invalidPackage := by
  unfold parse at h
  split_ifs at h
  split at h <;> cases h
  rfl

namespace Order

theorem checkWeight_ok_iff {o : Order} :
    o.checkWeight = .ok () ↔ ∀ limit, o.package.weightLimit? = some limit → ¬ limit ≤ o.weight := by
  unfold checkWeight
  rcases o.package.weightLimit? with _ | limit
  · simp
  · by_cases heavy : limit ≤ o.weight <;> simp [heavy]

theorem checkWeight_code {o : Order} {e : Error} (h : o.checkWeight = .error e) : e.code = .weightTooHeavy := by
  unfold checkWeight at h
  split at h <;> try split_ifs at h
  all_goals cases h
  rfl

variable {o : Order}

theorem charged_heavy (heavy : o.checkWeight ≠ .ok ()) : ∃ e, o.charged = .error e ∧ e.code = .weightTooHeavy := by
  rcases weighed : o.checkWeight with e | ⟨⟩
  · exact ⟨e, by rw [charged, weighed]; rfl, checkWeight_code weighed⟩
  · exact absurd weighed heavy

theorem charged_dear (light : o.checkWeight = .ok ()) (dear : o.addSurcharge.checkPrice ≠ .ok ()) :
    ∃ e, o.charged = .error e ∧ e.code = .invalidInput := by
  rcases priced : o.addSurcharge.checkPrice with e | ⟨⟩
  · exact ⟨e, by rw [charged, light, priced]; rfl, checkPrice_code priced⟩
  · exact absurd priced dear

theorem charged_passed (light : o.checkWeight = .ok ()) (fair : o.addSurcharge.checkPrice = .ok ()) :
    o.charged = .ok o.addSurcharge := by
  rw [charged, light, fair]
  rfl

theorem addSurcharge_price (o : Order) : o.addSurcharge.price.value = o.price.value + o.package.surcharge := by
  rw [addSurcharge, Decimal.value_add, Decimal.value_ofNat]

end Order

namespace Acceptance

variable {a : Acceptance} {now : Instant} {m : Memory} {package : Package}

theorem light_iff (named : a.package ∈ package.names) : a.Light ↔ (a.packed package).checkWeight = .ok () := by
  rw [Light, Package.forall_named named, Order.checkWeight_ok_iff]
  rfl

theorem payable_iff (named : a.package ∈ package.names) :
    a.Payable ↔ (a.packed package).addSurcharge.checkPrice = .ok () := by
  rw [Payable, Package.forall_named named, Order.checkPrice_ok_iff, Order.addSurcharge_price]
  rfl

/-! ## Verdicts -/

/-- What is judged of a parcel that comes in time, in a known package and under an id that is free. -/
theorem judged_free (due : now < a.expiresAt) (named : a.package ∈ package.names)
    (free : m.orders.find? a.orderId = none) :
    a.judged now (m.orders.find? a.orderId).isSome = (a.packed package).charged := by
  unfold judged
  rw [if_neg (not_le.2 due), Package.parse_ok_iff.2 named, free]
  rfl

theorem judged_refused {code : ErrorCode} (h : FirstFails (a.checks now m) code) :
    ∃ e, a.judged now (m.orders.find? a.orderId).isSome = .error e ∧ e.code = code := by
  simp only [checks, firstFails_cons, firstFails_nil, and_false, or_false] at h
  rcases h with ⟨late, rfl⟩ | ⟨due, ⟨unknown, rfl⟩ | ⟨⟨package, named⟩, ⟨taken, rfl⟩ | ⟨free, failed⟩⟩⟩
  · exact ⟨deadlinePassed, if_pos (not_lt.1 late), rfl⟩
  · rcases parsed : Package.parse a.package with e | package
    · refine ⟨e, ?_, Package.parse_code parsed⟩
      rw [judged, if_neg (not_le.2 due), parsed]
      rfl
    · exact absurd ⟨package, Package.parse_ok_iff.1 parsed⟩ unknown
  · refine ⟨.orderAlreadyExists, ?_, rfl⟩
    rw [judged, if_neg (not_le.2 due), Package.parse_ok_iff.2 named, Option.isSome_iff_ne_none.2 taken]
    rfl
  -- what is asked of the order that the parcel would be
  · rw [light_iff named, payable_iff named] at failed
    rw [judged_free due named free]
    rcases failed with ⟨heavy, rfl⟩ | ⟨light, dear, rfl⟩
    · exact Order.charged_heavy heavy
    · exact Order.charged_dear light dear

theorem judged_passed (h : ∀ check ∈ a.checks now m, check.1) :
    ∃ package : Package, a.package ∈ package.names ∧
      a.judged now (m.orders.find? a.orderId).isSome = .ok (a.packed package).addSurcharge := by
  simp only [checks, List.forall_mem_cons] at h
  obtain ⟨due, ⟨package, named⟩, free, light, fair, -⟩ := h
  rw [light_iff named] at light
  rw [payable_iff named] at fair
  exact ⟨package, named, (judged_free due named free).trans (Order.charged_passed light fair)⟩

end Acceptance

/-! ## Parcels that come in -/

/-- an order that is entered in a store: in a row of its own, with an entry of its history and an event -/
structure Memory.Enters (m : Memory) (o : Order) (m' : Memory) : Prop where
  orders : ∀ id, m'.orders.find? id = if o.id = id then some o else m.orders.find? id
  history : ∃ written, m'.history = m.history ++ [⟨(m.historyIds + 1 : Nat), o.id, .expects, written⟩]
  historyIds : m'.historyIds = m.historyIds + 1
  outbox : ∃ eventId told,
    m'.outbox = m.outbox ++ [⟨eventId, .orderAccepted, told, .courier o.userId, ⟨o.id, o.userId, .expects⟩, Event.ownSource⟩]

/-- the order that a parcel is entered as -/
structure Acceptance.EntersAs (a : Acceptance) (package : Package) (o : Order) : Prop where
  id : o.id = a.orderId
  userId : o.userId = a.userId
  status : o.status = .expects
  expiresAt : o.expiresAt = a.expiresAt
  packed : o.package = package
  weight : o.weight = a.weight
  price : o.price.value = a.price.value + package.surcharge

theorem Acceptance.packed_entersAs (a : Acceptance) (package : Package) :
    a.EntersAs package (a.packed package).addSurcharge :=
  ⟨rfl, rfl, rfl, rfl, rfl, rfl, Order.addSurcharge_price _⟩

variable {κ : Type}

theorem storeAccepted_enters {s : Site Memory κ} (hs : s.faults = []) {o : Order} (new : o.status = .expects)
    (free : s.store.orders.find? o.id = none) :
    ∃ t, storeAccepted o s = (.ok (), t) ∧ t.faults = [] ∧ s.store.Enters o t.store := by
  refine ⟨_, storeAccepted_free hs free, hs, ?_⟩
  exact ⟨s.store.orders.find?_put o, ⟨s.clock.current, by rw [← new]; rfl⟩, rfl,
    ⟨Uuid.ofRandom s.eventIds, s.clock.current, by rw [← new]; rfl⟩⟩

variable [HistoryCache κ]

/-- **Which parcels are accepted.** Where no faults are set, for every store, time and parcel: the first check that fails
is the reason of the refusal, which is counted and changes nothing else, and a parcel that passes all checks is entered
as an order with just its price and the surcharge. -/
theorem accept_exactly (quiet : DropsQuietly κ) {s : Site Memory κ} (hs : s.faults = []) (a : Acceptance) :
    (∀ code, FirstFails (a.checks s.clock.current s.store) code → ∃ e, e.code = code ∧
      accept a s = (.error (.error e), { s with clock := s.clock.advance, metrics := s.metrics.countFailure code })) ∧
    ((∀ check ∈ a.checks s.clock.current s.store, check.1) → ∃ package : Package, a.package ∈ package.names ∧
      ∃ o s', accept a s = (.ok o, s') ∧ a.EntersAs package o ∧ s.store.Enters o s'.store) := by
  have checked := checkAcceptance_run hs a
  constructor
  · intro code fails
    obtain ⟨e, judged, rfl⟩ := Acceptance.judged_refused fails
    rw [judged] at checked
    refine ⟨e, rfl, ?_⟩
    rw [accept, bind_run, checked]
  · intro passes
    obtain ⟨package, named, judged⟩ := Acceptance.judged_passed passes
    rw [judged] at checked
    have free : s.store.orders.find? a.orderId = none := passes (_, .orderAlreadyExists) (by simp [Acceptance.checks])
    obtain ⟨t, stored, ht, enters⟩ := storeAccepted_enters (s := { s with clock := s.clock.advance }) hs
      (o := (a.packed package).addSurcharge) rfl free
    obtain ⟨s', dropped, asked⟩ := dropHistory_calm quiet (a.packed package).addSurcharge.id
      (Fault.calm_of_none ht)
    refine ⟨package, named, _, s', ?_, a.packed_entersAs package, asked.store.symm ▸ enters⟩
    rw [accept, bind_run, checked]
    dsimp only
    rw [bind_run, stored]
    dsimp only
    rw [bind_run, dropped]
    rfl

/-- parcel 1 of client 7 on the shelf, no faults -/
def oneParcel : Site Memory TimedCache where
  clock := .ticking ⟨0, 0⟩
  eventIds := 0
  store := Memory.empty.seed ⟨1, 7, .expects, ⟨60, 0⟩, .box, 1, .ofNat 20⟩
  cache := .empty
  cacheTtl := 60
  metrics := .empty
  faults := []

/-- A parcel that is too heavy for an id that is taken, and one whose discount leaves a hundredth of its surcharge. -/
theorem accept_exactly_beside_one_parcel :
    oneParcel.faults = [] ∧
      (∃ e s', accept ⟨1, 8, 40, ⟨-1, 0⟩, ⟨60, 0⟩, "box"⟩ oneParcel = (.error (.error e), s') ∧
        e.code = .orderAlreadyExists ∧ s'.store = oneParcel.store) ∧
      ∃ o s', accept ⟨2, 8, 1, ⟨-1999, 2⟩, ⟨60, 0⟩, "box"⟩ oneParcel = (.ok o, s') ∧ o.price.value = 1 / 100 ∧
        oneParcel.store.Enters o s'.store := by
  have named : "box" ∈ Package.box.names := by decide
  have due : oneParcel.clock.current < ⟨60, 0⟩ := by decide
  have exactly := accept_exactly caches_dropQuietly.1 (s := oneParcel) rfl
  refine ⟨rfl, ?_, ?_⟩
  · obtain ⟨e, code, refused⟩ := (exactly ⟨1, 8, 40, ⟨-1, 0⟩, ⟨60, 0⟩, "box"⟩).1 .orderAlreadyExists
      (.later due (.later ⟨.box, named⟩ (.here (by decide))))
    exact ⟨e, _, refused, code, rfl⟩
  · have light : Acceptance.Light ⟨2, 8, 1, ⟨-1999, 2⟩, ⟨60, 0⟩, "box"⟩ := (Acceptance.light_iff named).2 (by decide)
    have payable : Acceptance.Payable ⟨2, 8, 1, ⟨-1999, 2⟩, ⟨60, 0⟩, "box"⟩ :=
      (Package.forall_named named).2 ⟨1, by norm_num, by norm_num [Decimal.value, Package.surcharge]⟩
    obtain ⟨package, named', o, s', accepted, as, enters⟩ := (exactly ⟨2, 8, 1, ⟨-1999, 2⟩, ⟨60, 0⟩, "box"⟩).2
      (by simpa [Acceptance.checks] using ⟨due, ⟨.box, named⟩, by decide, light, payable⟩)
    refine ⟨o, s', accepted, ?_, enters⟩
    have box : package = .box := (Package.forall_named (P := (· = .box)) named).2 rfl package named'
    rw [as.price, box]
    norm_num [Decimal.value, Package.surcharge]

end PickupPoint
