/-
Decimal numbers of arbitrary precision: an integer of digits and a scale, with the value digits · 10^(-scale). Two
decimals of one value may differ in scale, so `30.5` and `30.50` are equal in value and distinct as written.

`compare` orders by value. `add` works at the larger of two scales, where both operands are integers. `truncate` and
`round` move a value to a given scale, toward zero and to the nearest (a half away from zero). None of `compare`,
`truncate` and `round` raises ten to a power much above the digits it works on, whatever the scales are.
-/
namespace PickupPoint

structure Decimal where
  digits : Int
  scale : Int
  deriving DecidableEq, Repr

namespace Decimal

def ofNat (n : Nat) : Decimal := ⟨n, 0⟩

def zero : Decimal := ofNat 0

/-- digits of the value at a scale that is at least its own; zero has the digits zero at every scale -/
def digitsAt (d : Decimal) (scale : Int) : Int :=
  if d.digits = 0 then 0 else d.digits * Nat.pow 10 (scale - d.scale).toNat

/-! ## Order -/

/-- Order of `a` and `b · 10^places`, for positive `b`. The power stops growing where it has passed `a`. -/
def compareShifted (a b places : Nat) : Ordering := Ord.compare a (b * Nat.pow 10 (min places (a.log2 + 1)))

/-- order of two values other than zero by their distance from it -/
def compareMagnitude (a b : Decimal) : Ordering :=
  if a.scale ≤ b.scale then (compareShifted b.digits.natAbs a.digits.natAbs (b.scale - a.scale).toNat).swap
  else compareShifted a.digits.natAbs b.digits.natAbs (a.scale - b.scale).toNat

/-- order by value, in which signs decide first -/
def compare (a b : Decimal) : Ordering :=
  if a.digits.sign ≠ b.digits.sign ∨ a.digits = 0 then Ord.compare a.digits.sign b.digits.sign
  else if 0 < a.digits then compareMagnitude a b
  else compareMagnitude b a

def lt (a b : Decimal) : Bool := a.compare b == .lt

/-- equal in value -/
def sameValue (a b : Decimal) : Bool := a.compare b == .eq

/-! ## Arithmetic -/

/-- The sum, at the larger scale. Adding zero leaves the other operand as it is written. -/
def add (a b : Decimal) : Decimal :=
  if b.digits = 0 then a
  else if a.digits = 0 then b
  else
    let scale := max a.scale b.scale
    ⟨a.digitsAt scale + b.digitsAt scale, scale⟩

/-- The unit of a digit so many places up. Past the first place where `n` is less than half a unit it stops growing. -/
def unit (n places : Nat) : Nat := Nat.pow 10 (min places (n.log2 + 2))

/-- the value at another scale, digits beyond it dropped -/
def truncate (d : Decimal) (scale : Int) : Decimal :=
  if d.scale ≤ scale then ⟨d.digitsAt scale, scale⟩
  else ⟨d.digits.tdiv (unit d.digits.natAbs (d.scale - scale).toNat), scale⟩

/-- the nearest value at another scale, a half going away from zero -/
def round (d : Decimal) (scale : Int) : Decimal :=
  if d.scale ≤ scale then ⟨d.digitsAt scale, scale⟩
  else
    let n := d.digits.natAbs
    let unit := unit n (d.scale - scale).toNat
    ⟨d.digits.sign * ((2 * n + unit) / (2 * unit) : Nat), scale⟩

end Decimal
end PickupPoint
