/-
The shortest decimal of a double.

A finite double is m · 2^q for whole numbers m and q, and a decimal reads back as it when it lies nearer to it than to
its neighbours, the two midpoints included when m is even. `shortest` walks the decimal grids from the coarsest on and
takes the first that has a point in that interval: of two such points the nearer one, of two equally near ones the even
one. All arithmetic is on natural numbers.
-/
import PickupPoint.Bits

namespace PickupPoint.Binary64

/-- m and q of a finite double's magnitude -/
structure Parts where
  mantissa : Nat
  exponent : Int
  deriving DecidableEq, Repr

/-- exponent of the smallest doubles -/
def minExponent : Int := -1074

/-- the first mantissa that uses all 53 bits -/
def leastNormal : Nat := bitLimit 52

def isNegative (x : Float) : Bool := x.toBits.toNat / bitLimit 63 == 1

/-- the magnitude of a double, unless it is infinite or not a number -/
def parts? (x : Float) : Option Parts :=
  let bits := x.toBits.toNat
  let biased := bits / bitLimit 52 % bitLimit 11
  let fraction := bits % bitLimit 52
  if biased = maxOfBits 11 then none
  else if biased = 0 then some ⟨fraction, minExponent⟩
  else some ⟨leastNormal + fraction, minExponent + (biased - 1 : Nat)⟩

/-- the doubles that share the sign and round to it, in quarters of the last place -/
structure Interval where
  low : Nat
  value : Nat
  high : Nat
  closed : Bool
  deriving DecidableEq, Repr

/-- Below a power of two the neighbours are twice as near. -/
def Parts.interval (p : Parts) : Interval where
  low := 4 * p.mantissa - if p.mantissa = leastNormal ∧ minExponent < p.exponent then 1 else 2
  value := 4 * p.mantissa
  high := 4 * p.mantissa + 2
  closed := p.mantissa % 2 == 0

def Interval.contains (i : Interval) (step unit k : Nat) : Bool :=
  if i.closed then i.low * unit ≤ k * step ∧ k * step ≤ i.high * unit
  else i.low * unit < k * step ∧ k * step < i.high * unit

/-- A multiple of `step` inside the interval, whose numbers count in `unit`: one of the two around the value. -/
def Interval.gridPoint? (i : Interval) (step unit : Nat) : Option Nat :=
  let k := i.value * unit / step
  let below := i.value * unit - k * step
  let above := (k + 1) * step - i.value * unit
  match i.contains step unit k, i.contains step unit (k + 1) with
  | false, false => none
  | true, false => some k
  | false, true => some (k + 1)
  | true, true => if below < above ∨ (below = above ∧ k % 2 = 0) then some k else some (k + 1)

/-- digits · 10^power -/
structure Digits where
  digits : Nat
  power : Int
  deriving DecidableEq, Repr

/-- The first grid from 10^power downwards with a point in the interval. -/
def search (i : Interval) (exponent : Int) : Nat → Int → Digits
  | 0, power => ⟨0, power⟩
  | rounds + 1, power =>
    let step := Nat.pow 10 power.toNat * Nat.pow 2 (2 - exponent).toNat
    let unit := Nat.pow 10 (-power).toNat * Nat.pow 2 (exponent - 2).toNat
    match i.gridPoint? step unit with
    | some k => ⟨k, power⟩
    | none => search i exponent rounds (power - 1)

/-- a power of ten above the magnitude -/
def Parts.topPower (p : Parts) : Int :=
  (((p.mantissa.log2 : Int) + p.exponent + 1) * 30103).fdiv 100000 + 1

/-- The fewest digits that read back. Seventeen always suffice, which is fewer than the grids tried. -/
def shortest (p : Parts) : Digits :=
  if p.mantissa = 0 then ⟨0, 0⟩ else search p.interval p.exponent 24 p.topPower

end PickupPoint.Binary64
