/-
Answers to requests. An error answers with the code and the message of its cause; of a cause that lies inside the
service only the code is told.
-/
import PickupPoint.Service.Call

namespace PickupPoint.Http

inductive Response where
  | json (status : Nat) (body : Json)
  | text (status : Nat) (contentType text : String)
  /-- an answer given before any handler was reached, without a body of the service -/
  | plain (status : Nat)

def statusOf : Error → Nat
  | .validationFailed _ | .invalidInput _ | .invalidPackage _ | .weightTooHeavy | .invalidAction _ => 400
  | .orderNotFound => 404
  | .duplicateOrder | .orderAlreadyExists => 409
  | .orderAlreadyIssued | .storageExpired | .storageNotExpired | .returnTimeExpired => 422
  | .importFailed _ | .openFailed _ | .readFailed _ | .jsonFailed _ | .internal _ => 500

def hiddenMessage : String := "Internal server error"

def errorBody (code message : String) : Json :=
  .object [("error", .object [("code", .text code), ("message", .text message)])]

def ofError (e : Error) : Response :=
  let status := statusOf e
  .json status (errorBody e.code.text (if status = 500 then hiddenMessage else e.message))

/-- the answer when a handler broke off -/
def ofPanic : Response := .json 500 (errorBody ErrorCode.internal.text hiddenMessage)

def ofHalt : Halt → Response
  | .error e => ofError e
  | .panic _ => ofPanic

/-! ## Bodies -/

def orderBody (o : Order) : Json := .object [
  ("order_id", .integer o.id),
  ("user_id", .integer o.userId),
  ("status", .text o.status.text),
  ("expires_at", .text o.expiresAt.offsetText),
  ("package", .text o.package.text),
  ("weight", .float o.weight),
  ("total_price", .text o.price.toText)]

def entryBody (h : HistoryEntry) : Json := .object [
  ("id", .integer h.id),
  ("order_id", .integer h.orderId),
  ("status", .text h.status.text),
  ("created_at", .text h.createdAt.offsetText)]

def ordersBody (orders : List Order) : Json := .array (orders.map orderBody)

def idsBody (ids : List Nat) : Json := .array (ids.map fun (id : Nat) => .integer id)

def replyBody : Reply → Json
  | .order o => orderBody o
  | .status id status => .object [("order_id", .integer id), ("status", .text status.text)]
  | .batch r => .object [("processed", idsBody r.processed), ("errors", idsBody r.errors)]
  | .imported r => .object [("imported", .integer r.imported), ("errors", idsBody r.errors)]
  | .page orders total => .object [("orders", ordersBody orders), ("total", .integer total)]
  | .orders orders => .object [("returns", ordersBody orders)]
  | .scrolled orders cursor => .object [("orders", ordersBody orders), ("next_last_id", .integer cursor)]
  | .history entries => .object [("history", .array (entries.map entryBody))]

end PickupPoint.Http
