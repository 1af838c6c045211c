/-
The description of the interface: the operations with their parameters and answers, and the schemas of the bodies.
-/
namespace PickupPoint.Http.OpenApi

/-- where a parameter stands -/
inductive Place where
  | path
  | query
  deriving DecidableEq, Repr

def Place.text : Place → String
  | .path => "path"
  | .query => "query"

structure Parameter where
  name : String
  place : Place
  required : Bool
  deriving DecidableEq, Repr

structure Answer where
  status : Nat
  description : String
  schema : Option String
  deriving DecidableEq, Repr

structure Operation where
  method : String
  path : String
  id : String
  tag : String
  parameters : List Parameter
  request : Option String
  answers : List Answer
  deriving DecidableEq, Repr

inductive FieldType where
  | id
  | count
  | float
  | text
  | dateTime
  | list
  deriving DecidableEq, Repr

/-- type and format -/
def FieldType.names : FieldType → String × Option String
  | .id => ("integer", some "int64")
  | .count => ("integer", some "int32")
  | .float => ("number", some "double")
  | .text => ("string", none)
  | .dateTime => ("string", some "date-time")
  | .list => ("array", none)

structure Field where
  name : String
  type : FieldType
  required : Bool
  deriving DecidableEq, Repr

structure Schema where
  name : String
  fields : List Field
  deriving DecidableEq, Repr

def mandatory (name : String) : Parameter := ⟨name, .query, true⟩

def optional (name : String) : Parameter := ⟨name, .query, false⟩

def orderIdInPath : Parameter := ⟨"id", .path, true⟩

def operations : List Operation := [
  ⟨"post", "/orders", "accept_order", "orders", [], some "AcceptOrderRequest", [
    ⟨201, "Order accepted", some "OrderResponse"⟩,
    ⟨400, "Validation, package or weight error", none⟩,
    ⟨409, "Order already exists", none⟩,
    ⟨500, "Internal server error", none⟩]⟩,
  ⟨"post", "/orders/import", "import_orders", "orders", [], some "ImportOrdersRequest", [
    ⟨200, "Import finished", some "ImportOrdersResponse"⟩]⟩,
  ⟨"get", "/orders/\x7bid\x7d", "get_order", "orders", [orderIdInPath], none, [
    ⟨200, "Order found", some "OrderResponse"⟩,
    ⟨404, "Order not found", none⟩]⟩,
  ⟨"delete", "/orders/\x7bid\x7d", "return_order", "orders", [orderIdInPath], none, [
    ⟨200, "Order returned to courier", some "StatusResponse"⟩,
    ⟨404, "Order not found", none⟩,
    ⟨422, "Order is with the client or its storage time has not expired", none⟩]⟩,
  ⟨"post", "/orders/process", "process_orders", "orders", [], some "ProcessOrdersRequest", [
    ⟨200, "Per-order outcome", some "ProcessOrdersResponse"⟩]⟩,
  ⟨"get", "/orders", "list_orders", "orders",
    [mandatory "user_id", optional "in_pvz_only", optional "last_n", optional "page", optional "limit"], none, [
    ⟨200, "Page of a user's orders", some "ListOrdersResponse"⟩,
    ⟨400, "limit is zero", none⟩]⟩,
  ⟨"get", "/orders/scroll", "scroll_orders", "orders",
    [mandatory "user_id", optional "last_id", optional "limit"], none, [
    ⟨200, "Next slice of a user's orders", some "ScrollResponse"⟩]⟩,
  ⟨"get", "/returns", "list_returns", "orders", [optional "page", optional "limit"], none, [
    ⟨200, "Orders returned by clients", some "ReturnsResponse"⟩]⟩,
  ⟨"get", "/history", "get_history", "history", [optional "page", optional "count"], none, [
    ⟨200, "Status changes, newest first", some "HistoryResponse"⟩]⟩,
  ⟨"get", "/orders/\x7bid\x7d/history", "get_order_history", "history", [orderIdInPath], none, [
    ⟨200, "Status changes of one order", some "HistoryResponse"⟩,
    ⟨404, "No history for this order", none⟩]⟩]

def schemas : List Schema := [
  ⟨"AcceptOrderRequest", [⟨"order_id", .id, true⟩, ⟨"user_id", .id, true⟩, ⟨"weight", .float, true⟩,
    ⟨"price", .text, true⟩, ⟨"expires_at", .dateTime, true⟩, ⟨"package", .text, false⟩]⟩,
  ⟨"OrderResponse", [⟨"order_id", .id, true⟩, ⟨"user_id", .id, true⟩, ⟨"status", .text, true⟩,
    ⟨"expires_at", .text, true⟩, ⟨"package", .text, true⟩, ⟨"weight", .float, true⟩, ⟨"total_price", .text, true⟩]⟩,
  ⟨"StatusResponse", [⟨"order_id", .id, true⟩, ⟨"status", .text, true⟩]⟩,
  ⟨"ProcessOrdersRequest", [⟨"user_id", .id, true⟩, ⟨"action", .text, true⟩, ⟨"order_ids", .list, true⟩]⟩,
  ⟨"ProcessOrdersResponse", [⟨"processed", .list, true⟩, ⟨"errors", .list, true⟩]⟩,
  ⟨"ImportOrdersRequest", [⟨"orders", .list, true⟩]⟩,
  ⟨"ImportOrdersResponse", [⟨"imported", .count, true⟩, ⟨"errors", .list, true⟩]⟩,
  ⟨"ListOrdersResponse", [⟨"orders", .list, true⟩, ⟨"total", .count, true⟩]⟩,
  ⟨"ScrollResponse", [⟨"orders", .list, true⟩, ⟨"next_last_id", .id, true⟩]⟩,
  ⟨"ReturnsResponse", [⟨"returns", .list, true⟩]⟩,
  ⟨"HistoryEntryResponse", [⟨"id", .id, true⟩, ⟨"order_id", .id, true⟩, ⟨"status", .text, true⟩,
    ⟨"created_at", .text, true⟩]⟩,
  ⟨"HistoryResponse", [⟨"history", .list, true⟩]⟩]

def operation? (method path : String) : Option Operation := operations.find? fun o => o.method == method && o.path == path

def schema? (name : String) : Option Schema := schemas.find? (·.name == name)

end PickupPoint.Http.OpenApi
