/-
What can go wrong at the client of a database by itself, with no statement refused: a record that is missing where one
has to be, and transactions out of order. To the service each is an internal error.
-/
import PickupPoint.Error

namespace PickupPoint

inductive ClientFault where
  | recordNotFound
  | rollbackAsked
  | transactionOpen
  | transactionMissing
  | transactionsBroken
  deriving DecidableEq, Repr

namespace ClientFault

def message : ClientFault → String
  | .recordNotFound => "Record not found"
  | .rollbackAsked => "You have asked diesel to rollback the transaction"
  | .transactionOpen => "Cannot perform this operation while a transaction is open"
  | .transactionMissing => "Cannot perform this operation outside of a transaction"
  | .transactionsBroken => "The transaction manager is broken"

def error (f : ClientFault) : Error := .internal f.message

end ClientFault
end PickupPoint
