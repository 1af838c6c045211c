/-
JSON values. A number is an integer when it is written as one that fits 64 bits, signed or not, and a double otherwise.

`Tree.keep?` turns a tree into a value: strings have to be intact, numbers within the doubles, and containers nested at
most as deep as the levels given. Of a repeated key the last one counts.
-/
import PickupPoint.Json.Tree
import PickupPoint.Binary64.Text

namespace PickupPoint

open Text

inductive Json where
  | null
  | bool (value : Bool)
  | integer (n : Int)
  | float (x : Float)
  | text (s : String)
  | array (items : List Json)
  | object (fields : List (String × Json))

namespace Json

/-- the field of an object -/
def get? (key : String) : Json → Option Json
  | .object fields => (fields.findRev? (·.1 == key)).map (·.2)
  | _ => none

def natural? : Json → Option Nat
  | .integer n => n.toNat?
  | _ => none

def asText? : Json → Option String
  | .text s => some s
  | _ => none

/-- any number, as a double -/
def asFloat? : Json → Option Float
  | .integer n => some (if n < 0 then -n.natAbs.toUInt64.toFloat else n.natAbs.toUInt64.toFloat)
  | .float x => some x
  | _ => none

/-! ## Numbers -/

/-- the largest unsigned number of 64 bits -/
def maxNatural : Nat := maxOfBits 64

/-- digits that still fit 64 bits, and how many do not -/
def wholeDigits (ds : List Char) : Nat × Nat :=
  ds.foldl (fun (acc, dropped) c =>
    let next := acc * 10 + (digit? c).getD 0
    if dropped = 0 ∧ next ≤ maxNatural then (next, 0) else (acc, dropped + 1)) (0, 0)

/-- The digits of a fraction after `start`, as long as they fit 64 bits, and how many do. -/
def fractionDigits (start : Nat) : List Char → Nat × Nat
  | [] => (start, 0)
  | c :: rest =>
    let next := start * 10 + (digit? c).getD 0
    if next ≤ maxNatural then
      let (significand, places) := fractionDigits next rest
      (significand, places + 1)
    else (start, 0)

def exponentValue : Option (Bool × List Char) → Int
  | none => 0
  | some (negative, ds) =>
    let n : Nat := ds.foldl (fun acc c => acc * 10 + (digit? c).getD 0) 0
    if negative then -(n : Int) else n

def Numeral.float? (n : Numeral) : Option Float :=
  let (whole, dropped) := wholeDigits n.whole
  let (significand, places) := fractionDigits whole n.fraction
  Binary64.ofDigits? n.negative significand (exponentValue n.exponent + dropped - places)

/-- Zero with a minus is a double, for it has no integer of its own. -/
def Numeral.value? (n : Numeral) : Option Json :=
  let (whole, dropped) := wholeDigits n.whole
  if n.fraction = [] ∧ n.exponent = none ∧ dropped = 0 then
    if ¬ n.negative then some (.integer whole)
    else if 0 < whole ∧ whole ≤ bitLimit 63 then some (.integer (-whole))
    else n.float?.map .float
  else n.float?.map .float

/-! ## Values of trees -/

mutual

/-- the value of a tree with containers nested at most `levels` deep -/
def Tree.keep? (levels : Nat) : Tree → Option Json
  | .null => some .null
  | .bool b => some (.bool b)
  | .numeral n => n.value?
  | .text rs => (intact? rs).map .text
  | .array items => if levels = 0 then none else (Tree.keepItems? (levels - 1) items).map .array
  | .object fields => if levels = 0 then none else (Tree.keepFields? (levels - 1) fields).map .object

def Tree.keepItems? (levels : Nat) : List Tree → Option (List Json)
  | [] => some []
  | t :: rest => do return (← t.keep? levels) :: (← Tree.keepItems? levels rest)

def Tree.keepFields? (levels : Nat) : List (List Rune × Tree) → Option (List (String × Json))
  | [] => some []
  | (key, t) :: rest => do return (← intact? key, ← t.keep? levels) :: (← Tree.keepFields? levels rest)

end

/-- levels of containers that a text may have -/
def maxLevels : Nat := 127

def parse? (text : String) : Option Json := (Tree.parse? text).bind (Tree.keep? maxLevels)

end Json
end PickupPoint
