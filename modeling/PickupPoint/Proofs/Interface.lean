/-
The description of the interface, and what the service does with requests.

The described operations are the routes, but for the one to the counters (`routed_iff`), and each route has the
parameters of its operation: it reads no others from the query (`demand_of_described`), and turns a request away that
leaves out a required one (`required_demanded`).
-/
import PickupPoint.Http.OpenApi
import PickupPoint.Proofs.Refusals

namespace PickupPoint.Http

open OpenApi Json
open List (Forall₂)

/-! ## Operations and routes -/

/-- the name of the operation that a route leads to; the counters have none -/
def Route.operationId? : Route → Option String
  | .acceptOrder => some "accept_order"
  | .listOrders => some "list_orders"
  | .importOrders => some "import_orders"
  | .processOrders => some "process_orders"
  | .scrollOrders => some "scroll_orders"
  | .getOrder _ => some "get_order"
  | .reclaimOrder _ => some "return_order"
  | .orderHistory _ => some "get_order_history"
  | .returns => some "list_returns"
  | .history => some "get_history"
  | .metrics => none

namespace OpenApi

/-- A segment in braces stands for any text but the empty one. -/
def Fits (template segment : String) : Prop :=
  if template.toList.head? = some '{' then segment.isEmpty = false else segment = template

theorem fits_plain {template segment : String} (plain : template.toList.head? ≠ some '{') :
    Fits template segment ↔ segment = template := by
  rw [Fits, if_neg plain]

theorem fits_self {text : String} (plain : text.toList.head? ≠ some '{') : Fits text text := (fits_plain plain).2 rfl

theorem fits_id {segment : String} : Fits "\x7bid\x7d" segment ↔ segment.isEmpty = false := by
  rw [Fits, if_pos (by decide)]

namespace Operation

def segments (o : Operation) : List String := (Target.ofText o.path).segments?.getD []

/-- A request of this method and path is one for the operation. -/
def Takes (o : Operation) (method : String) (segments : List String) : Prop :=
  method = o.method.toUpper ∧ Forall₂ Fits o.segments segments

/-- what an operation is asked by, and its name -/
def entry (o : Operation) : String × List String × String := (o.method.toUpper, o.segments, o.id)

end Operation

theorem entries : operations.map Operation.entry = [
    ("POST", ["orders"], "accept_order"), ("POST", ["orders", "import"], "import_orders"),
    ("GET", ["orders", "\x7bid\x7d"], "get_order"), ("DELETE", ["orders", "\x7bid\x7d"], "return_order"),
    ("POST", ["orders", "process"], "process_orders"), ("GET", ["orders"], "list_orders"),
    ("GET", ["orders", "scroll"], "scroll_orders"), ("GET", ["returns"], "list_returns"),
    ("GET", ["history"], "get_history"), ("GET", ["orders", "\x7bid\x7d", "history"], "get_order_history")] := by
  decide +kernel

/-- Each route but that to the counters is an operation of its name. -/
theorem takes_of_find? {method id : String} {segments : List String} {route : Route}
    (found : Route.find? method segments = some route) (named : route.operationId? = some id) :
    ∃ o ∈ operations, o.id = id ∧ o.Takes method segments := by
  suffices h : ∃ template, (method, template, id) ∈ operations.map Operation.entry ∧ Forall₂ Fits template segments by
    obtain ⟨template, mem, fits⟩ := h
    obtain ⟨o, described, same⟩ := List.mem_map.1 mem
    cases same
    exact ⟨o, described, rfl, rfl, fits⟩
  rw [entries]
  have orders : Fits "orders" "orders" := fits_self (by decide)
  unfold Route.find? at found
  split at found
  · cases found; cases named
    exact ⟨["orders"], by decide, .cons orders .nil⟩
  · cases found; cases named
    exact ⟨["orders"], by decide, .cons orders .nil⟩
  · cases found; cases named
    exact ⟨["orders", "import"], by decide, .cons orders (.cons (fits_self (by decide)) .nil)⟩
  · cases found; cases named
    exact ⟨["orders", "process"], by decide, .cons orders (.cons (fits_self (by decide)) .nil)⟩
  · cases found; cases named
    exact ⟨["orders", "scroll"], by decide, .cons orders (.cons (fits_self (by decide)) .nil)⟩
  · split_ifs at found with empty
    cases found; cases named
    exact ⟨["orders", "\x7bid\x7d"], by decide, .cons orders (.cons (fits_id.2 (by simpa using empty)) .nil)⟩
  · split_ifs at found with empty
    cases found; cases named
    exact ⟨["orders", "\x7bid\x7d"], by decide, .cons orders (.cons (fits_id.2 (by simpa using empty)) .nil)⟩
  · split_ifs at found with empty
    cases found; cases named
    exact ⟨["orders", "\x7bid\x7d", "history"], by decide,
      .cons orders (.cons (fits_id.2 (by simpa using empty)) (.cons (fits_self (by decide)) .nil))⟩
  · cases found; cases named
    exact ⟨["returns"], by decide, .cons (fits_self (by decide)) .nil⟩
  · cases found; cases named
    exact ⟨["history"], by decide, .cons (fits_self (by decide)) .nil⟩
  · cases found; cases named
  · cases found

/-- Whatever is described is routed. -/
theorem find?_of_takes {o : Operation} (described : o ∈ operations) {method : String} {segments : List String}
    (takes : o.Takes method segments) : (Route.find? method segments).isSome = true := by
  obtain ⟨asked, fits⟩ := takes
  have known := List.mem_map_of_mem (f := Operation.entry) described
  rw [entries] at known
  simp only [List.mem_cons, List.not_mem_nil, or_false, Operation.entry, Prod.mk.injEq] at known
  rcases known with ⟨m, t, -⟩ | ⟨m, t, -⟩ | ⟨m, t, -⟩ | ⟨m, t, -⟩ | ⟨m, t, -⟩ | ⟨m, t, -⟩ | ⟨m, t, -⟩ | ⟨m, t, -⟩ |
    ⟨m, t, -⟩ | ⟨m, t, -⟩
  all_goals
    rw [m] at asked
    rw [t] at fits
    subst asked
    simp (disch := decide) only [List.forall₂_cons_left_iff, List.forall₂_nil_left_iff, fits_plain, fits_id,
      exists_and_left, ↓existsAndEq, exists_eq_left, and_true, true_and] at fits
  · subst fits; rfl
  · subst fits; rfl
  · obtain ⟨id, filled, rfl⟩ := fits
    -- the segment may be the one of another operation
    unfold Route.find?
    split <;> simp_all
  · obtain ⟨id, filled, rfl⟩ := fits
    simp [Route.find?, filled]
  · subst fits; rfl
  · subst fits; rfl
  · subst fits; rfl
  · subst fits; rfl
  · subst fits; rfl
  · obtain ⟨id, filled, rfl⟩ := fits
    simp [Route.find?, filled]

end OpenApi

/-- **What is described is routed.** Besides requests for the counters, the service has routes for just those requests
that fit a described operation. -/
theorem routed_iff {r : Request} : r.route?.isSome = true ↔
    r.route? = some .metrics ∨ ∃ segments, r.target.segments? = some segments ∧
      ∃ o ∈ operations, o.Takes r.method segments := by
  constructor
  · intro routed
    obtain ⟨route, found⟩ := Option.isSome_iff_exists.1 routed
    obtain ⟨segments, path, found'⟩ := Option.bind_eq_some_iff.1 found
    rcases named : route.operationId? with _ | id
    · cases route <;> cases named
      exact .inl found
    · obtain ⟨o, described, -, takes⟩ := takes_of_find? found' named
      exact .inr ⟨segments, path, o, described, takes⟩
  · rintro (found | ⟨segments, path, o, described, takes⟩)
    · rw [found]; rfl
    · rw [Request.route?, path]
      exact find?_of_takes described takes

/-! ## Parameters -/

/-- the parameters that a route reads from the query, and which of them it cannot do without -/
def Route.query : Route → List (String × Bool)
  | .listOrders => [("user_id", true), ("in_pvz_only", false), ("last_n", false), ("page", false), ("limit", false)]
  | .scrollOrders => [("user_id", true), ("last_id", false), ("limit", false)]
  | .returns => [("page", false), ("limit", false)]
  | .history => [("page", false), ("count", false)]
  | _ => []

/-- the parameters of the query as they are described -/
def OpenApi.Operation.query (o : Operation) : List (String × Bool) :=
  (o.parameters.filter (·.place = .query)).map fun p => (p.name, p.required)

theorem query_of_route {o : Operation} (described : o ∈ operations) {route : Route}
    (named : route.operationId? = some o.id) : o.query = route.query := by
  have known : (o.id, o.query) ∈ [("accept_order", []), ("import_orders", []), ("get_order", []), ("return_order", []),
      ("process_orders", []), ("list_orders", Route.listOrders.query), ("scroll_orders", Route.scrollOrders.query),
      ("list_returns", Route.returns.query), ("get_history", Route.history.query), ("get_order_history", [])] :=
    List.mem_map_of_mem (f := fun o : Operation => (o.id, o.query)) described
  cases route with
  | metrics => cases named
  | _ =>
    rw [← Option.some.inj named] at known
    simpa [Route.query] using known

section Query

variable {names : List String} {pairs pairs' : List (String × String)}
  (same : pairs'.filter (·.1 ∈ names) = pairs.filter (·.1 ∈ names))
include same

theorem field?_eq {name : String} (mem : name ∈ names) : field? name pairs' = field? name pairs := by
  have inside (l : List (String × String)) :
      l.filter (·.1 == name) = (l.filter (·.1 ∈ names)).filter (·.1 == name) := by
    rw [List.filter_filter]
    refine List.filter_congr fun p _ => ?_
    by_cases h : p.1 = name <;> simp [h, mem]
  unfold field?
  rw [inside pairs', same, ← inside pairs]

theorem number?_eq (name : String) (mem : name ∈ names) (limit : Nat) (fallback : Option Nat) :
    number? name limit fallback pairs' = number? name limit fallback pairs := by
  unfold number?
  rw [field?_eq same mem]

theorem flag?_eq (name : String) (mem : name ∈ names) : flag? name pairs' = flag? name pairs := by
  unfold flag?
  rw [field?_eq same mem]

end Query

/-- **The query says no more than is described.** Two requests for one operation that differ in their queries alone, and
there in nothing that has the name of a described parameter, ask for the same. -/
theorem demand_of_described {r r' : Request} {route : Route} (found : r.route? = some route)
    (found' : r'.route? = some route) {o : Operation} (described : o ∈ operations)
    (named : route.operationId? = some o.id) (type : r'.contentType = r.contentType) (body : r'.body = r.body)
    (same : r'.target.pairs.filter (·.1 ∈ o.query.map (·.1)) = r.target.pairs.filter (·.1 ∈ o.query.map (·.1))) :
    Demand.ofRequest r' = .ofRequest r := by
  rw [ofRequest_route, ofRequest_route, found, found']
  rw [query_of_route described named] at same
  cases route with
  | acceptOrder | importOrders | processOrders =>
    simp only [Demand.ofRoute, Demand.ofBody, type, body]
  | getOrder | reclaimOrder | orderHistory | metrics => rfl
  | listOrders | scrollOrders | returns | history =>
    have number := number?_eq same
    have flag := flag?_eq same
    simp (disch := decide) only [Demand.ofRoute, number, flag]

/-- **What is required is asked for.** A request that leaves out a parameter of its query that is described as required
is turned away. -/
theorem required_demanded {r : Request} {route : Route} (found : r.route? = some route) {o : Operation}
    (described : o ∈ operations) (named : route.operationId? = some o.id) {name : String}
    (required : (name, true) ∈ o.query) (missing : ∀ p ∈ r.target.pairs, p.1 ≠ name) :
    Demand.ofRequest r = .badRequest := by
  have nothing : r.target.pairs.filter (·.1 == name) = [] :=
    List.filter_eq_nil_iff.2 fun p hp => by simpa using missing p hp
  have unread (limit : Nat) : number? name limit none r.target.pairs = none := by
    rw [number?, field?, nothing]
    rfl
  rw [ofRequest_route, found]
  rw [query_of_route described named] at required
  cases route with
  | listOrders | scrollOrders =>
    obtain rfl : name = "user_id" := by simpa [Route.query] using required
    simp only [Demand.ofRoute, unread]
    rfl
  | _ => simp [Route.query] at required

end PickupPoint.Http
