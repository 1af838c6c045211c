/-
Why an operation of the pickup point is refused. An `Error` is a cause with the detail that belongs to it; its `code`
is the stable name clients match on and its `message` the sentence they read. Both depend on the cause alone.
-/
namespace PickupPoint

/-- stable name of a cause -/
inductive ErrorCode where
  | validationFailed
  | invalidInput
  | orderNotFound
  | duplicateOrder
  | orderAlreadyExists
  | orderAlreadyIssued
  | storageExpired
  | storageNotExpired
  | returnTimeExpired
  | invalidAction
  | weightTooHeavy
  | invalidPackage
  | importFailed
  | openFailed
  | readFailed
  | jsonFailed
  | internal
  deriving DecidableEq, Repr

namespace ErrorCode

def text : ErrorCode → String
  | .validationFailed => "VALIDATION_FAILED"
  | .invalidInput => "INVALID_INPUT"
  | .orderNotFound => "ORDER_NOT_FOUND"
  | .duplicateOrder => "DUPLICATE_ORDER"
  | .orderAlreadyExists => "ORDER_ALREADY_EXISTS"
  | .orderAlreadyIssued => "ORDER_ALREADY_ISSUED"
  | .storageExpired => "STORAGE_EXPIRED"
  | .storageNotExpired => "STORAGE_NOT_EXPIRED"
  | .returnTimeExpired => "RETURN_TIME_EXPIRED"
  | .invalidAction => "INVALID_ACTION"
  | .weightTooHeavy => "WEIGHT_TOO_HEAVY"
  | .invalidPackage => "INVALID_PACKAGE"
  | .importFailed => "IMPORT_FAILED"
  | .openFailed => "OPEN_FAILED"
  | .readFailed => "READ_FILE_ERROR"
  | .jsonFailed => "JSON_FAILED"
  | .internal => "INTERNAL_ERROR"

/-- every code, in the order of its text -/
def all : List ErrorCode :=
  [.duplicateOrder, .importFailed, .internal, .invalidAction, .invalidInput, .invalidPackage, .jsonFailed,
    .openFailed, .orderAlreadyExists, .orderAlreadyIssued, .orderNotFound, .readFailed, .returnTimeExpired,
    .storageExpired, .storageNotExpired, .validationFailed, .weightTooHeavy]

theorem mem_all (c : ErrorCode) : c ∈ all := by cases c <;> decide

end ErrorCode

/-- cause of a refusal, with its detail -/
inductive Error where
  | validationFailed (detail : String)
  | invalidInput (detail : String)
  | orderNotFound
  | duplicateOrder
  | orderAlreadyExists
  | orderAlreadyIssued
  | storageExpired
  | storageNotExpired
  | returnTimeExpired
  | invalidAction (action : String)
  | weightTooHeavy
  | invalidPackage (name : String)
  | importFailed (detail : String)
  | openFailed (detail : String)
  | readFailed (detail : String)
  | jsonFailed (detail : String)
  | internal (detail : String)
  deriving DecidableEq, Repr

namespace Error

def code : Error → ErrorCode
  | .validationFailed _ => .validationFailed
  | .invalidInput _ => .invalidInput
  | .orderNotFound => .orderNotFound
  | .duplicateOrder => .duplicateOrder
  | .orderAlreadyExists => .orderAlreadyExists
  | .orderAlreadyIssued => .orderAlreadyIssued
  | .storageExpired => .storageExpired
  | .storageNotExpired => .storageNotExpired
  | .returnTimeExpired => .returnTimeExpired
  | .invalidAction _ => .invalidAction
  | .weightTooHeavy => .weightTooHeavy
  | .invalidPackage _ => .invalidPackage
  | .importFailed _ => .importFailed
  | .openFailed _ => .openFailed
  | .readFailed _ => .readFailed
  | .jsonFailed _ => .jsonFailed
  | .internal _ => .internal

def message : Error → String
  | .validationFailed detail => "Validation failed: " ++ detail
  | .invalidInput detail => "Invalid input: " ++ detail
  | .orderNotFound => "Order not found"
  | .duplicateOrder => "Order with this id is already stored"
  | .orderAlreadyExists => "Order already exists"
  | .orderAlreadyIssued => "Order is already issued to the client"
  | .storageExpired => "Storage time has expired"
  | .storageNotExpired => "Storage time has not expired yet"
  | .returnTimeExpired => "Return window has expired"
  | .invalidAction action => "Unsupported action: " ++ action
  | .weightTooHeavy => "Weight exceeds the package limit"
  | .invalidPackage name => "Unknown package type: " ++ name
  | .importFailed detail => "Import failed: " ++ detail
  | .openFailed detail => "Open failed: " ++ detail
  | .readFailed detail => "Read failed: " ++ detail
  | .jsonFailed detail => "JSON error: " ++ detail
  | .internal detail => "Internal error: " ++ detail

end Error

/-- An operation stops early either with a refusal or, when something it relies on breaks, with a panic. -/
inductive Halt where
  | error (cause : Error)
  | panic (text : String)
  deriving DecidableEq, Repr

end PickupPoint
