/-
Doubles as text.

`toText` writes the shortest decimal that reads back, with at least one digit after the point: plainly from 10^-5 up to
10^16, otherwise as one digit, the rest after a point, and a signed power of ten.

`ofDigits?` reads a decimal of at most 64 bits of digits: the digits become a double, which one power of ten then
multiplies or divides. Each of the two acts rounds, so the result may miss the nearest double by a little.
-/
import PickupPoint.Binary64.Shortest
import PickupPoint.Decimal.Basic
import PickupPoint.Text.Integer

namespace PickupPoint.Binary64

open Text

/-- powers of ten written without an exponent -/
def isPlainPower (e : Int) : Bool := -5 ≤ e && e < 16

/-- the digits of a positive number and the power of ten of the first of them -/
def plainText (ds : List Char) (e : Int) : String :=
  if e < 0 then "0." ++ String.ofList (List.replicate (-e - 1).toNat '0' ++ ds)
  else
    let whole := e.toNat + 1
    let fraction := ds.drop whole
    String.ofList (ds.take whole ++ List.replicate (whole - ds.length) '0') ++ "." ++
      (if fraction.isEmpty then "0" else String.ofList fraction)

def scientificText (ds : List Char) (e : Int) : String :=
  String.ofList (ds.take 1) ++ (if ds.length ≤ 1 then "" else "." ++ String.ofList (ds.drop 1)) ++
    (if e < 0 then "e-" else "e+") ++ toString e.natAbs

def magnitudeText (p : Parts) : String :=
  if p.mantissa = 0 then "0.0"
  else
    let d := shortest p
    let ds := natDigits d.digits
    let e := d.power + ds.length - 1
    if isPlainPower e then plainText ds e else scientificText ds e

/-- the text of a finite double -/
def toText? (x : Float) : Option String :=
  (parts? x).map fun p => (if isNegative x then "-" else "") ++ magnitudeText p

/-- 10^n, the nearest double to it -/
def powerOfTen (n : Nat) : Float := Float.ofScientific 1 false n

/-- the largest power of ten that is a double -/
def maxPower : Nat := 308

/-- `x` over 10^n -/
def scaleDown (x : Float) (n : Nat) : Float :=
  if n ≤ maxPower then x / powerOfTen n
  else if x == 0 then x
  else scaleDown (x / powerOfTen maxPower) (n - maxPower)
termination_by n
decreasing_by
  simp only [maxPower] at *
  omega

/-- `x` times 10^n, unless that is past the largest double -/
def scaleUp? (x : Float) (n : Nat) : Option Float :=
  if n ≤ maxPower then
    let y := x * powerOfTen n
    if y.isInf then none else some y
  else if x == 0 then some x
  else none

/-- significand · 10^power, for a significand of at most 64 bits -/
def ofDigits? (negative : Bool) (significand : Nat) (power : Int) : Option Float :=
  let x := significand.toUInt64.toFloat
  let y := if power < 0 then some (scaleDown x power.natAbs) else scaleUp? x power.natAbs
  y.map fun y => if negative then -y else y

/-- the exact value of a finite double, with the least scale of at least zero -/
def exactDecimal? (x : Float) : Option Decimal :=
  (parts? x).map fun p =>
    let sign : Int := if isNegative x then -1 else 1
    if p.mantissa = 0 then Decimal.zero
    else if 0 ≤ p.exponent then ⟨sign * (p.mantissa * Nat.pow 2 p.exponent.toNat : Nat), 0⟩
    else
      let halves := p.exponent.natAbs
      let shared := Nat.gcd p.mantissa (Nat.pow 2 halves)
      let places := halves - shared.log2
      ⟨sign * (p.mantissa / shared * Nat.pow 5 places : Nat), places⟩

end PickupPoint.Binary64
