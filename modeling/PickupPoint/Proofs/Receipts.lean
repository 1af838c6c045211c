/-
What clients are told of a price.

Whoever hands over a parcel is told the price with the surcharge, exactly and in plain notation. As long as the order is
there, every answer that shows it tells the same price in the same text (`receipts_exact`): answers show orders as they
are stored (`perform_shows`), and no call changes the price of a row (`Deed.Turns.of_both`). No faults are set.
-/
import PickupPoint.Proofs.Admission
import PickupPoint.Proofs.Deeds
import PickupPoint.Proofs.PriceText
import PickupPoint.Proofs.Refusals
import PickupPoint.Proofs.Tenants

namespace PickupPoint

open Act

/-! ## Prices in answers -/

namespace Json

/-- The value is, or lies in, another one. -/
inductive IsPart (part : Json) : Json → Prop
  | self : IsPart part part
  | item {items : List Json} {v : Json} (mem : v ∈ items) (h : IsPart part v) : IsPart part (.array items)
  | field {fields : List (String × Json)} {key : String} {v : Json} (mem : (key, v) ∈ fields) (h : IsPart part v) :
    IsPart part (.object fields)

/-- an object that tells the price of an order -/
structure Prices (v : Json) (id : Nat) (price : Json) : Prop where
  order : v.get? "order_id" = some (.integer id)
  price : v.get? "total_price" = some price

theorem of_natural? {v : Json} {n : Nat} (h : v.natural? = some n) : v = .integer n := by
  cases v with
  | integer m => rw [Int.mem_toNat?.1 h]
  | _ => cases h

theorem of_asText? {v : Json} {s : String} (h : v.asText? = some s) : v = .text s := by
  cases v with
  | text t => rw [Option.some.inj h]
  | _ => cases h

/-- The prices in a value are those of some orders. -/
def PricedBy (orders : List Order) (v : Json) : Prop :=
  ∀ part id price, IsPart part v → part.Prices id price → ∃ o ∈ orders, o.id = id ∧ price = .text o.price.toText

variable {orders : List Order}

theorem pricedBy_integer (n : Int) : PricedBy orders (.integer n) := by
  rintro _ _ _ ⟨⟩ ⟨⟨⟩, -⟩

theorem pricedBy_float (x : Float) : PricedBy orders (.float x) := by
  rintro _ _ _ ⟨⟩ ⟨⟨⟩, -⟩

theorem pricedBy_text (s : String) : PricedBy orders (.text s) := by
  rintro _ _ _ ⟨⟩ ⟨⟨⟩, -⟩

theorem pricedBy_array {items : List Json} (h : ∀ v ∈ items, PricedBy orders v) : PricedBy orders (.array items) := by
  rintro part id price inside prices
  cases inside with
  | self => cases prices.order
  | item mem inside => exact h _ mem part id price inside prices

theorem pricedBy_object {fields : List (String × Json)}
    (whole : ∀ id price, (object fields).Prices id price → ∃ o ∈ orders, o.id = id ∧ price = .text o.price.toText)
    (h : ∀ f ∈ fields, PricedBy orders f.2) : PricedBy orders (.object fields) := by
  rintro part id price inside prices
  cases inside with
  | self => exact whole id price prices
  | field mem inside => exact h _ mem part id price inside prices

/-- An object that names no order tells the price of none. -/
theorem pricedBy_unnamed {fields : List (String × Json)}
    (unnamed : (object fields).get? "total_price" = none) (h : ∀ f ∈ fields, PricedBy orders f.2) :
    PricedBy orders (.object fields) :=
  pricedBy_object (fun _ _ prices => nomatch unnamed.symm.trans prices.price) h

end Json

namespace Http

open Json

variable {orders : List Order}

theorem pricedBy_orderBody {o : Order} (mem : o ∈ orders) : PricedBy orders (orderBody o) := by
  refine pricedBy_object (fun id price h => ⟨o, mem, ?_⟩) ?_
  · have order : some (Json.integer o.id) = some (.integer id) := h.order
    have told : some (Json.text o.price.toText) = some price := h.price
    simp_all
  · simp [pricedBy_integer, pricedBy_float, pricedBy_text]

theorem pricedBy_entryBody (e : HistoryEntry) : PricedBy orders (entryBody e) := by
  exact pricedBy_unnamed rfl (by simp [pricedBy_integer, pricedBy_text])

end Http

/-- the orders that a reply shows -/
def Reply.shown : Reply → List Order
  | .order o => [o]
  | .page os _ | .orders os | .scrolled os _ => os
  | .status .. | .batch _ | .imported _ | .history _ => []

namespace Http

open Json

theorem pricedBy_ordersBody (orders : List Order) : PricedBy orders (ordersBody orders) := by
  refine pricedBy_array fun v hv => ?_
  obtain ⟨o, mem, rfl⟩ := List.mem_map.1 hv
  exact pricedBy_orderBody mem

theorem pricedBy_idsBody (orders : List Order) (ids : List Nat) : PricedBy orders (idsBody ids) := by
  refine pricedBy_array fun v hv => ?_
  obtain ⟨id, -, rfl⟩ := List.mem_map.1 hv
  exact pricedBy_integer id

theorem pricedBy_replyBody (r : Reply) : PricedBy r.shown (replyBody r) := by
  cases r with
  | order o => exact pricedBy_orderBody List.mem_cons_self
  | status => exact pricedBy_unnamed rfl (by simp [pricedBy_integer, pricedBy_text])
  | batch => exact pricedBy_unnamed rfl (by simp [pricedBy_idsBody])
  | imported => exact pricedBy_unnamed rfl (by simp [pricedBy_integer, pricedBy_idsBody])
  | page | scrolled => exact pricedBy_unnamed rfl (by simp [Reply.shown, pricedBy_ordersBody, pricedBy_integer])
  | orders => exact pricedBy_unnamed rfl (by simp [Reply.shown, pricedBy_ordersBody])
  | history entries =>
    have listed : PricedBy (Reply.history entries).shown (.array (entries.map entryBody)) := by
      refine pricedBy_array fun v hv => ?_
      obtain ⟨e, -, rfl⟩ := List.mem_map.1 hv
      exact pricedBy_entryBody e
    exact pricedBy_unnamed rfl (by simpa using listed)

theorem pricedBy_errorBody (code message : String) : PricedBy [] (errorBody code message) :=
  pricedBy_unnamed rfl fun f hf => by
    rw [List.mem_singleton.1 hf]
    exact pricedBy_unnamed rfl (by simp [pricedBy_text])

/-- An answer tells the price of an order. -/
def Response.Prices (x : Response) (id : Nat) (price : Json) : Prop :=
  ∃ (status : Nat) (body part : Json), x = .json status body ∧ part.IsPart body ∧ part.Prices id price

theorem not_prices_errorBody (status : Nat) (code message : String) (id : Nat) (price : Json) :
    ¬ (Response.json status (errorBody code message)).Prices id price := by
  rintro ⟨_, _, part, ⟨⟩, inside, prices⟩
  obtain ⟨_, mem, -⟩ := pricedBy_errorBody _ _ part id price inside prices
  cases mem

section Answers

variable {σ κ : Type} [OrderStore σ] [HistoryCache κ] {r : Request} {s s' : Site σ κ}

/-- A request is answered for a call, unless it tells of no order at all. -/
theorem handle_call {x : Response} (answered : handle r s = (x, s')) :
    (∃ status c reply, Demand.ofRequest r = .call status c ∧ c.perform s = (.ok reply, s') ∧
      x = .json status (replyBody reply)) ∨
      (∃ e, x = ofError e) ∨ x = ofPanic ∨ ∀ status body, x ≠ .json status body := by
  unfold handle at answered
  rcases asked : Demand.ofRequest r with ⟨status, c⟩ | e | _ | status <;> rw [asked] at answered
  · rcases run : c.perform s with ⟨(e | text) | reply, t⟩ <;> simp only [answer, run] at answered <;> cases answered
    · exact .inr (.inl ⟨e, rfl⟩)
    · exact .inr (.inr (.inl rfl))
    · exact .inl ⟨status, c, reply, rfl, run, rfl⟩
  · cases answered; exact .inr (.inl ⟨e, rfl⟩)
  · cases answered; exact .inr (.inr (.inr (by simp)))
  · cases answered; exact .inr (.inr (.inr (by simp)))

/-- The prices in an answer are those of the orders in a reply of the service. -/
theorem handle_prices {x : Response} (answered : handle r s = (x, s')) {id : Nat} {price : Json} (h : x.Prices id price) :
    ∃ c reply, Call.perform c s = (.ok reply, s') ∧
      ∃ o ∈ reply.shown, o.id = id ∧ price = .text o.price.toText := by
  rcases handle_call answered with ⟨status, c, reply, -, run, rfl⟩ | ⟨e, rfl⟩ | rfl | silent
  · obtain ⟨_, _, part, ⟨⟩, isPart, prices⟩ := h
    exact ⟨c, reply, run, pricedBy_replyBody reply part id price isPart prices⟩
  · exact (not_prices_errorBody _ _ _ _ _ h).elim
  · exact (not_prices_errorBody _ _ _ _ _ h).elim
  · obtain ⟨status, body, -, same, -⟩ := h
    exact absurd same (silent status body)

theorem ofBody_call {α : Type} {d : Json.Decoder α} {demand : α → Demand} {status : Nat} {c : Call}
    (asked : Demand.ofBody r d demand = .call status c) : ∃ a, demand a = .call status c := by
  unfold Demand.ofBody at asked
  split_ifs at asked with json large
  · split at asked
    · exact ⟨_, asked⟩
    · cases asked
  · cases asked

/-- Only a parcel is asked to be created. -/
theorem parcel_of_created {c : Call} (asked : Demand.ofRequest r = .call 201 c) :
    ∃ p a, r.parcel? = some p ∧ p.acceptance = .ok a ∧ c = .accept a := by
  have single : ∀ route, r.route? = some route → ¬ route.IsBulk := by
    intro route found bulk
    rw [ofRequest_route, found] at asked
    cases route with
    | processOrders | importOrders =>
      obtain ⟨_, called⟩ := ofBody_call asked
      cases called
    | _ => exact bulk
  rcases demand_cases single with ⟨p, parcel, same⟩ | ⟨-, settled⟩
  · rw [same] at asked
    unfold Demand.ofParcel at asked
    split at asked <;> cases asked
    exact ⟨p, _, parcel, ‹_›, rfl⟩
  · rw [asked] at settled
    cases settled.1

/-- A parcel that is created is answered with its order. -/
theorem handle_created {body : Json} (answered : handle r s = (.json 201 body, s')) :
    ∃ p a o, r.parcel? = some p ∧ p.acceptance = .ok a ∧ accept a s = (.ok o, s') ∧ body = orderBody o := by
  rcases handle_call answered with ⟨status, c, reply, asked, run, same⟩ | ⟨e, same⟩ | same | silent
  · cases same
    obtain ⟨p, a, parcel, read, rfl⟩ := parcel_of_created asked
    obtain ⟨o, accepted, rfl⟩ := of_map_run run
    exact ⟨p, a, o, parcel, read, accepted, rfl⟩
  · have failed := status_ofError e
    rw [← same] at failed
    change 400 ≤ 201 at failed
    omega
  · cases same
  · exact absurd rfl (silent 201 body)

end Answers

end Http

/-! ## Orders in replies -/

section Replies

variable {κ : Type} {s s' : Site Memory κ}

/-- A reply shows orders as they are stored, or the order that was accepted just now. -/
theorem perform_shows [HistoryCache κ] {c : Call} {reply : Reply} (answered : c.perform s = (.ok reply, s')) {o : Order}
    (mem : o ∈ reply.shown) : s.store.orders.find? o.id = some o ∨ ∃ a, accept a s = (.ok o, s') := by
  rw [← OrderTable.mem_rows_iff]
  cases c with
  | accept a =>
    obtain ⟨o', accepted, rfl⟩ := of_map_run answered
    obtain rfl : o = o' := by simpa [Reply.shown] using mem
    exact .inr ⟨a, accepted⟩
  | reclaim | process | importAll | history | orderHistory =>
    obtain ⟨_, -, rfl⟩ := of_map_run answered
    cases mem
  | list userId inPickupPoint last page limit =>
    have shows := listOrders_shows (s := s) userId inPickupPoint last page limit
    obtain ⟨p, run, rfl⟩ := of_map_run (f := fun p : List Order × Nat => Reply.page p.1 p.2) answered
    exact .inl (shows.answer p (congrArg Prod.fst run) o mem)
  | returns page limit =>
    have shows := listReturns_shows (s := s) page limit
    obtain ⟨orders, run, rfl⟩ := of_map_run answered
    exact .inl (shows.answer orders (congrArg Prod.fst run) o mem)
  | scroll userId cursor limit =>
    have shows := scrollOrders_shows (s := s) userId cursor limit
    obtain ⟨p, run, rfl⟩ := of_map_run (f := fun p : List Order × Nat => Reply.scrolled p.1 p.2) answered
    exact .inl (shows.answer p (congrArg Prod.fst run) o mem)
  | get id =>
    have shows := getOrder_shows (s := s) id
    obtain ⟨o', run, rfl⟩ := of_map_run answered
    obtain rfl : o = o' := by simpa [Reply.shown] using mem
    exact .inl (List.mem_of_find?_eq_some (shows.answer o (congrArg Prod.fst run)))

end Replies

/-! ## Rows over time -/

/-- A row that is there before and after a deed is of the same parcel. -/
theorem Deed.Turns.of_both {d : Deed} {o o' : Order} (h : d.Turns (some o) (some o')) : o.SameParcel o' := by
  cases h <;> exact ⟨rfl, rfl, rfl, rfl, rfl⟩

section Rows

variable {κ : Type} [HistoryCache κ] {s s' : Site Memory κ} (hs : s.faults = [])
include hs

/-- What an acceptance answers has been judged, and is in a row from then on that was free before. -/
theorem accept_answered {a : Acceptance} {o : Order} (answered : accept a s = (.ok o, s')) :
    a.judged s.clock.current false = .ok o ∧ s.store.orders.find? o.id = none ∧ s'.store.orders.find? o.id = some o := by
  have checked := checkAcceptance_run hs a
  rw [accept, bind_run] at answered
  rcases judged : a.judged s.clock.current (s.store.orders.find? a.orderId).isSome with e | x <;> rw [judged] at checked <;>
    rw [checked] at answered
  · cases answered
  obtain ⟨free, named, new⟩ := judged_ok judged
  rw [free] at judged
  have none : s.store.orders.find? x.id = none := by
    rw [named]
    simpa using free
  obtain ⟨t, stored, -, enters⟩ := storeAccepted_enters (s := { s with clock := s.clock.advance }) hs new none
  dsimp only at answered
  rw [bind_run, stored] at answered
  dsimp only at answered
  rw [bind_run] at answered
  have dropped : (dropHistory x.id t).2.store = t.store := (dropHistory_obeys x.id t).law.store
  rcases run : dropHistory x.id t with ⟨halt | _, u⟩ <;> rw [run] at answered dropped <;> cases answered
  refine ⟨judged, none, ?_⟩
  rw [dropped, enters.orders, if_pos rfl]

end Rows

namespace Http

section Served

variable {κ : Type} [HistoryCache κ]

/-- the site after some requests -/
def serve (s : Site Memory κ) (requests : List Request) : Site Memory κ :=
  requests.foldl (fun s r => (handle r s).2) s

/-- What a request makes of a site, the call that it asks for makes of it. -/
theorem handle_step (r : Request) (s : Site Memory κ) : (handle r s).2 = s ∨ ∃ c : Call, (handle r s).2 = c.step s := by
  unfold handle
  rcases Demand.ofRequest r with ⟨status, c⟩ | e | _ | status
  · refine .inr ⟨c, ?_⟩
    unfold Call.step
    rcases run : c.perform s with ⟨halt | reply, t⟩ <;> simp only [answer, run]
  · exact .inl rfl
  · exact .inl rfl
  · exact .inl rfl

theorem handle_faultless (r : Request) {s : Site Memory κ} (hs : s.faults = []) : (handle r s).2.faults = [] := by
  rcases handle_step r s with same | ⟨c, same⟩ <;> rw [same]
  · exact hs
  · exact Fault.none_of_effects (perform_dated c s).effects hs

theorem handle_row (r : Request) {s : Site Memory κ} {o o' : Order} (row : s.store.orders.find? o.id = some o)
    (row' : (handle r s).2.store.orders.find? o.id = some o') : o.SameParcel o' := by
  rcases handle_step r s with same | ⟨c, same⟩ <;> rw [same] at row'
  · obtain rfl := Option.some.inj (row.symm.trans row')
    exact ⟨rfl, rfl, rfl, rfl, rfl⟩
  · have turned := c.turns s o.id
    rw [row, row'] at turned
    exact turned.of_both

theorem serve_concat (s : Site Memory κ) (requests : List Request) (r : Request) :
    serve s (requests ++ [r]) = (handle r (serve s requests)).2 :=
  List.foldl_concat ..

/-- A row that stays is of the same parcel all along. -/
theorem serve_row {s : Site Memory κ} (hs : s.faults = []) {o : Order} (row : s.store.orders.find? o.id = some o)
    {requests : List Request}
    (stays : ∀ done, done <+: requests → (serve s done).store.orders.find? o.id ≠ none) :
    (serve s requests).faults = [] ∧ ∃ o', (serve s requests).store.orders.find? o.id = some o' ∧ o.SameParcel o' := by
  induction requests using List.reverseRecOn with
  | nil => exact ⟨hs, o, row, rfl, rfl, rfl, rfl, rfl⟩
  | append_singleton requests r ih =>
    obtain ⟨faultless, old, there, same⟩ := ih fun done before => stays done (before.trans (List.prefix_append _ _))
    obtain ⟨o', still⟩ := Option.ne_none_iff_exists'.1 (stays _ List.prefix_rfl)
    refine ⟨serve_concat s requests r ▸ handle_faultless r faultless, o', still, same.trans ?_⟩
    rw [serve_concat] at still
    rw [← same.id] at there still
    exact handle_row r there still

/-- the text says just what a parcel costs -/
def Receipt (p : ParcelBody) (text : String) : Prop :=
  ∃ price package total, Decimal.parse p.price = .ok price ∧ Package.parse p.package = .ok package ∧
    Decimal.Plain text ∧ Decimal.parse text = .ok total ∧ total.value = price.value + package.surcharge

/-- The text of a price that passed its check is such a receipt. -/
theorem receipt_of_judged {p : ParcelBody} {a : Acceptance} (read : p.acceptance = .ok a) {now : Instant} {taken : Bool}
    {o : Order} (judged : a.judged now taken = .ok o) : o.id = p.orderId ∧ Receipt p o.price.toText := by
  obtain ⟨-, package, parsed, charged⟩ := judged_charged judged
  obtain ⟨rfl, checked⟩ := Order.charged_ok charged
  obtain ⟨n, small, same⟩ := Order.checkPrice_ok_iff.1 checked
  unfold ParcelBody.acceptance at read
  rcases number : Decimal.parse p.price with fault | price <;> rw [number] at read <;> cases read
  have fits := Decimal.add_ofNat_fits (Decimal.parse_fits number) package.surcharge
  obtain ⟨plain, total, reads, value⟩ := Decimal.price_text small same fits
  exact ⟨rfl, price, package, total, number, parsed, plain, reads, value.trans (Order.addSurcharge_price _)⟩

/-- **Prices in answers.** Where no faults are set, whatever is stored and however the price of a parcel is written: if
the parcel is answered as created, the price in the answer is plain, and reads back as the price of the parcel and the
surcharge of its package. As long as the order is there, every later answer that shows it says the same text. -/
theorem receipts_exact {s s' : Site Memory κ} (hs : s.faults = []) {r : Request} {body : Json}
    (answered : handle r s = (.json 201 body, s')) :
    ∃ p text, r.parcel? = some p ∧ body.Prices p.orderId (.text text) ∧ Receipt p text ∧
      ∀ (requests : List Request) (later : Request),
        (∀ done, done <+: requests → (serve s' done).store.orders.find? p.orderId ≠ none) →
        ∀ price, (handle later (serve s' requests)).1.Prices p.orderId price → price = .text text := by
  obtain ⟨p, a, o, parcel, read, accepted, rfl⟩ := handle_created answered
  obtain ⟨judged, -, row⟩ := accept_answered hs accepted
  obtain ⟨named, receipt⟩ := receipt_of_judged read judged
  have hs' : s'.faults = [] := by
    have faultless := handle_faultless r hs
    rwa [answered] at faultless
  refine ⟨p, o.price.toText, parcel, ⟨named ▸ rfl, rfl⟩, receipt, fun requests later stays price prices => ?_⟩
  rw [← named] at stays prices
  obtain ⟨faultless, o', there, same⟩ := serve_row hs' row stays
  obtain ⟨c, reply, run, x, shown, here, rfl⟩ := handle_prices rfl prices
  rcases perform_shows run shown with stored | ⟨a', accepted'⟩
  · rw [here, there] at stored
    rw [← Option.some.inj stored, same.price]
  · obtain ⟨-, free, -⟩ := accept_answered faultless accepted'
    rw [here, there] at free
    cases free

end Served

/-- a box of client 7, at a price with an underscore and an exponent -/
def boxParcel : Request where
  method := "POST"
  target := ⟨"/orders", ""⟩
  contentType := some "application/json"
  body := ("\x7b\"order_id\": 1, \"user_id\": 7, \"weight\": 2, \"price\": \"1_0.5e1\", " ++
    "\"expires_at\": \"2999-01-01T00:00:00Z\", \"package\": \"box\"\x7d").toUTF8.toList

/-- the order that an answer of this status shows, and the text of its price -/
def Response.receipt? (status : Nat) : Response → Option (Nat × String)
  | .json s body =>
    if s = status then do
      return (← (body.get? "order_id").bind Json.natural?, ← (body.get? "total_price").bind Json.asText?)
    else none
  | _ => none

theorem Response.of_receipt? {x : Response} {status id : Nat} {text : String}
    (h : x.receipt? status = some (id, text)) : ∃ body, x = .json status body ∧ body.Prices id (.text text) := by
  unfold receipt? at h
  split at h
  case h_2 => cases h
  case h_1 s body =>
    split_ifs at h with same
    simp only [Option.bind_eq_bind, Option.bind_eq_some_iff, Option.pure_def, Option.some.injEq, Prod.mk.injEq] at h
    obtain ⟨n, ⟨v, order, natural⟩, _, ⟨w, price, written⟩, rfl, rfl⟩ := h
    refine ⟨body, same ▸ rfl, ?_, ?_⟩
    · rw [order, Json.of_natural? natural]
    · rw [price, Json.of_asText? written]

/-- It costs 105 and 20 for the box, and so it says to whoever looks it up. -/
theorem box_parcel_receipt :
    (opening TimedCache.empty).faults = [] ∧ ∃ body s' shown s'',
      handle boxParcel (opening TimedCache.empty) = (.json 201 body, s') ∧ body.Prices 1 (.text "125") ∧
        s'.store.orders.find? 1 ≠ none ∧ handle lookUp s' = (.json 200 shown, s'') ∧ shown.Prices 1 (.text "125") := by
  obtain ⟨named, told, row, looked⟩ : boxParcel.parcel?.map (·.orderId) = some 1 ∧
      (handle boxParcel (opening TimedCache.empty)).1.receipt? 201 = some (1, "125") ∧
      ((handle boxParcel (opening TimedCache.empty)).2.store.orders.find? 1).isSome = true ∧
      ((handle lookUp (handle boxParcel (opening TimedCache.empty)).2).1.receipt? 200).map Prod.fst = some 1 := by
    decide +kernel
  rcases answered : handle boxParcel (opening TimedCache.empty) with ⟨x, s'⟩
  rw [answered] at told row looked
  have there := Option.isSome_iff_ne_none.1 row
  obtain ⟨body, rfl, prices⟩ := Response.of_receipt? told
  obtain ⟨⟨_, text⟩, told', rfl⟩ := Option.map_eq_some_iff.1 looked
  rcases answered' : handle lookUp s' with ⟨x', s''⟩
  rw [answered'] at told'
  obtain ⟨shown, rfl, prices'⟩ := Response.of_receipt? told'
  obtain ⟨p, t, parcel, priced, -, later⟩ := receipts_exact rfl answered
  have first : p.orderId = 1 := by
    rw [parcel] at named
    exact Option.some.inj named
  obtain rfl : t = "125" := Json.text.inj (Option.some.inj (priced.price.symm.trans prices.price))
  have stays : ∀ done, done <+: [] → (serve s' done).store.orders.find? p.orderId ≠ none := fun done before => by
    rw [List.prefix_nil.1 before, first]
    exact there
  have shows : (handle lookUp (serve s' [])).1.Prices p.orderId (.text text) :=
    ⟨200, shown, shown, congrArg Prod.fst answered', .self, first ▸ prices'⟩
  obtain rfl : text = "125" := Json.text.inj (later [] lookUp stays _ shows)
  exact ⟨rfl, body, s', shown, s'', rfl, prices, there, answered', prices'⟩

end Http

end PickupPoint
