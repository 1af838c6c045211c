/-
How a parcel is packed. A package has a name, a surcharge and, for bags and boxes, a weight that a parcel has to stay
below.
-/
import PickupPoint.Error

namespace PickupPoint

inductive Package where
  | bare
  | bag
  | box
  | tape
  | bagTape
  | boxTape
  deriving DecidableEq, Repr

namespace Package

def all : List Package := [.bare, .bag, .box, .tape, .bagTape, .boxTape]

theorem mem_all (p : Package) : p ∈ all := by cases p <;> decide

def text : Package → String
  | .bare => "none"
  | .bag => "bag"
  | .box => "box"
  | .tape => "tape"
  | .bagTape => "bag+tape"
  | .boxTape => "box+tape"

def ofText? : String → Option Package
  | "none" => some .bare
  | "bag" => some .bag
  | "box" => some .box
  | "tape" => some .tape
  | "bag+tape" => some .bagTape
  | "box+tape" => some .boxTape
  | _ => none

theorem ofText?_text (p : Package) : ofText? p.text = some p := by cases p <;> rfl

/-- No name at all and `unspecified` mean no packing either. -/
def parse (raw : String) : Except Error Package :=
  if raw = "" ∨ raw = "unspecified" then .ok .bare
  else
    match ofText? raw with
    | some p => .ok p
    | none => .error (.invalidPackage raw)

def isName (raw : String) : Bool := (parse raw).toBool

/-- fixed amount added to the base price -/
def surcharge : Package → Nat
  | .bare => 0
  | .bag => 5
  | .box => 20
  | .tape => 1
  | .bagTape => 6
  | .boxTape => 21

/-- kilograms that are too heavy already, if there is a limit -/
def weightLimit? : Package → Option Float
  | .bare | .tape => none
  | .bag | .bagTape => some 10.0
  | .box | .boxTape => some 30.0

end Package
end PickupPoint
