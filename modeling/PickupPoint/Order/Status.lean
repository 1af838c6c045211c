/-
Where an order stands: expected at the pickup point, accepted by its client, returned by the client, or deleted, which
only the history records. Each status has a name in storage.
-/
import PickupPoint.Error

namespace PickupPoint

inductive Status where
  /-- delivered by the courier, waiting at the pickup point -/
  | expects
  /-- handed over to the client -/
  | accepted
  /-- brought back by the client -/
  | returned
  /-- handed back to the courier; no stored order has it -/
  | deleted
  deriving DecidableEq, Repr

namespace Status

def text : Status → String
  | .expects => "EXPECTS"
  | .accepted => "ACCEPTED"
  | .returned => "RETURNED"
  | .deleted => "DELETED"

def ofText? : String → Option Status
  | "EXPECTS" => some .expects
  | "ACCEPTED" => some .accepted
  | "RETURNED" => some .returned
  | "DELETED" => some .deleted
  | _ => none

theorem ofText?_text (s : Status) : ofText? s.text = some s := by cases s <;> rfl

/-- an unknown name is a fault of storage, which alone holds names -/
def parse (raw : String) : Except Error Status :=
  match ofText? raw with
  | some s => .ok s
  | none => .error (.internal ("unknown order status '" ++ raw ++ "'"))

/-- the parcel lies at the pickup point -/
def isInPickupPoint : Status → Bool
  | .expects | .returned => true
  | .accepted | .deleted => false

end Status
end PickupPoint
