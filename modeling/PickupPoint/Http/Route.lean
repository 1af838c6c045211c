/-
The routes of the service, and its answers to requests.

A route is found by method and path; a literal segment wins over an id. A request that no route takes, or whose id,
query or body does not read, is answered without reaching the service.
-/
import PickupPoint.Http.Request
import PickupPoint.Http.Response

namespace PickupPoint.Http

open Text Json

inductive Route where
  | acceptOrder
  | listOrders
  | importOrders
  | processOrders
  | scrollOrders
  | getOrder (id : String)
  | reclaimOrder (id : String)
  | orderHistory (id : String)
  | returns
  | history
  | metrics
  deriving DecidableEq, Repr

def Route.find? (method : String) (segments : List String) : Option Route :=
  match method, segments with
  | "POST", ["orders"] => some .acceptOrder
  | "GET", ["orders"] => some .listOrders
  | "POST", ["orders", "import"] => some .importOrders
  | "POST", ["orders", "process"] => some .processOrders
  | "GET", ["orders", "scroll"] => some .scrollOrders
  | "GET", ["orders", id] => if id.isEmpty then none else some (.getOrder id)
  | "DELETE", ["orders", id] => if id.isEmpty then none else some (.reclaimOrder id)
  | "GET", ["orders", id, "history"] => if id.isEmpty then none else some (.orderHistory id)
  | "GET", ["returns"] => some .returns
  | "GET", ["history"] => some .history
  | "GET", ["metrics"] => some .metrics
  | _, _ => none

/-- what a request asks for, or the answer that it gets at once -/
inductive Demand where
  | call (status : Nat) (c : Call)
  /-- a parcel whose price does not read -/
  | refused (e : Error)
  | metrics
  | turnedAway (status : Nat)

namespace Demand

def badRequest : Demand := .turnedAway 400

def notFound : Demand := .turnedAway 404

def ofCall? (c : Option Call) : Demand :=
  match c with
  | some c => .call 200 c
  | none => badRequest

/-- a call about the order with the id of the path -/
def ofId (id : String) (c : Nat → Call) : Demand :=
  match readNat maxId (Target.segmentText id) with
  | .ok id => .call 200 (c id)
  | .error _ => notFound

/-- what a body in JSON asks for -/
def ofBody {α : Type} (r : Request) (d : Decoder α) (demand : α → Demand) : Demand :=
  if ¬ (r.contentType.bind MediaType.parse?).any MediaType.isJson then badRequest
  else if bodyLimit < r.body.length then .turnedAway 413
  else
    match (Tree.ofRunes? (decode r.body)).bind (d maxLevels) with
    | some a => demand a
    | none => badRequest

/-- orders on a page when the query does not say -/
def defaultLimit : Nat := 20

def ofParcel (p : ParcelBody) : Demand :=
  match p.acceptance with
  | .ok a => .call 201 (.accept a)
  | .error e => .refused e

def ofRoute (r : Request) (route : Route) : Demand :=
  let pairs := r.target.pairs
  match route with
  | .acceptOrder => ofBody r decodeParcel ofParcel
  | .importOrders => ofBody r decodeRecords fun records => .call 200 (.importAll (records.map readRecord))
  | .processOrders => ofBody r decodeBatch fun (userId, action, ids) => .call 200 (.process userId action ids)
  | .listOrders => ofCall? do
    return .list (← number? "user_id" maxId none pairs) (← flag? "in_pvz_only" pairs)
      (← number? "last_n" maxCount (some 0) pairs) (← number? "page" maxCount (some 0) pairs)
      (← number? "limit" maxCount (some defaultLimit) pairs)
  | .scrollOrders => ofCall? do
    return .scroll (← number? "user_id" maxId none pairs) (← number? "last_id" maxId (some 0) pairs)
      (← number? "limit" maxCount (some defaultLimit) pairs)
  | .returns => ofCall? do
    return .returns (← number? "page" maxCount (some 0) pairs) (← number? "limit" maxCount (some 0) pairs)
  | .history => ofCall? do
    return .history (← number? "page" maxCount (some 0) pairs) (← number? "count" maxCount (some 0) pairs)
  | .getOrder id => ofId id .get
  | .reclaimOrder id => ofId id .reclaim
  | .orderHistory id => ofId id .orderHistory
  | .metrics => .metrics

def ofRequest (r : Request) : Demand :=
  match r.target.segments?.bind (Route.find? r.method) with
  | some route => ofRoute r route
  | none => notFound

end Demand

variable {σ κ : Type} [OrderStore σ] [HistoryCache κ]

def metricsType : String := "text/plain; version=0.0.4"

def answer (d : Demand) (s : Site σ κ) : Response × Site σ κ :=
  match d with
  | .call status c =>
    match c.perform s with
    | (.ok reply, s) => (.json status (replyBody reply), s)
    | (.error halt, s) => (ofHalt halt, s)
  | .refused e => (ofError e, s)
  | .metrics => (.text 200 metricsType s.metrics.toText, s)
  | .turnedAway status => (.plain status, s)

/-- the answer to a request, and the site after it -/
def handle (r : Request) (s : Site σ κ) : Response × Site σ κ := answer (.ofRequest r) s

end PickupPoint.Http
