/-
Decimals as text.

`parse` reads an optional sign, digits with at most one point, and an exponent after `e` or `E`. An underscore may stand
between digits and counts for nothing. Of several faults the exponent's comes first, then a missing number, a scale out
of range, and the digits'.

`toText` is the short form: plain notation, an exponent only where more than five zeros would follow the point or more
than fifteen would precede it. `toPlain` always writes every digit.
-/
import PickupPoint.Bits
import PickupPoint.Decimal.Basic
import PickupPoint.Text.Integer

namespace PickupPoint.Decimal

open Text

/-- why a text is no decimal -/
inductive Fault where
  | exponent (fault : IntegerFault)
  | empty
  | scaleOverflow (text : String)
  | digits (fault : IntegerFault)
  deriving DecidableEq, Repr

def Fault.message : Fault → String
  | .exponent fault => fault.message
  | .empty => "Failed to parse empty string"
  | .scaleOverflow text => "Exponent overflow when parsing '" ++ text ++ "'"
  | .digits fault => fault.message

/-- digits and underscores of a number, with an underscore never first -/
def readMagnitude : List Char → Except IntegerFault Nat
  | [] => .error .empty
  | '_' :: _ => .error .invalidDigit
  | cs => cs.foldlM (fun acc c => if c = '_' then .ok acc else
      match digit? c with
      | some d => .ok (acc * 10 + d)
      | none => .error .invalidDigit) 0

/-- a number without a minus, which may have one plus -/
def readUnsigned : List Char → Except IntegerFault Nat
  | '+' :: '+' :: _ => .error .invalidDigit
  | '+' :: cs => readMagnitude cs
  | cs => readMagnitude cs

def readSigned : List Char → Except IntegerFault Int
  | '-' :: '+' :: _ => .error .invalidDigit
  | '-' :: cs => (readUnsigned cs).map fun n => -Int.ofNat n
  | cs => (readUnsigned cs).map Int.ofNat

/-- digits without their point, and how many of them stand after it -/
def splitPoint (cs : List Char) : List Char × Nat :=
  let fraction := (cs.dropWhile (· ≠ '.')).drop 1
  (cs.takeWhile (· ≠ '.') ++ fraction, (fraction.filter (· ≠ '_')).length)

/-- exponents have 128 bits -/
def exponentLimit : Nat := maxOfBits 127

def isExponentMark (c : Char) : Bool := c == 'e' || c == 'E'

/-- the text after the exponent mark, 0 without one -/
def readExponent (cs : List Char) : Except Fault Int :=
  match cs.dropWhile (!isExponentMark ·) with
  | [] => .ok 0
  | _ :: e => (readInt exponentLimit (String.ofList e)).mapError .exponent

def parse (text : String) : Except Fault Decimal := do
  let cs := text.toList
  let exponent ← readExponent cs
  let base := cs.takeWhile (!isExponentMark ·)
  if base.isEmpty then throw .empty
  let (digits, places) := splitPoint base
  let scale := (places : Int) - exponent
  if ¬ fitsSigned 64 scale then throw (.scaleOverflow text)
  let number ← (readSigned digits).mapError .digits
  return ⟨number, scale⟩

def zeros (n : Nat) : List Char := List.replicate n '0'

def signText (d : Decimal) : String := if d.digits < 0 then "-" else ""

/-- every digit, with exactly `scale` of them after the point -/
def toPlain (d : Decimal) : String :=
  let ds := natDigits d.digits.natAbs
  if d.scale ≤ 0 then
    d.signText ++ String.ofList (if d.digits = 0 then ds else ds ++ zeros (-d.scale).toNat)
  else
    let places := d.scale.toNat
    let ds := zeros (places + 1 - ds.length) ++ ds
    d.signText ++ String.ofList (ds.take (ds.length - places)) ++ "." ++ String.ofList (ds.drop (ds.length - places))

/-- one digit before the point, and a power of ten -/
def toScientific (d : Decimal) : String :=
  let ds := natDigits d.digits.natAbs
  let fraction := if ds.length ≤ 1 then "" else "." ++ String.ofList (ds.drop 1)
  d.signText ++ String.ofList (ds.take 1) ++ fraction ++ "E" ++ toString ((ds.length : Int) - 1 - d.scale)

/-- zeros that may follow the point before the first digit -/
def leadingZeros : Int := 5

/-- zeros that may follow the last digit before the point -/
def trailingZeros : Int := 15

/-- the short form; zero is `0` at every scale -/
def toText (d : Decimal) : String :=
  if d.digits = 0 then "0"
  else if d.scale - (natDigits d.digits.natAbs).length > leadingZeros then d.toScientific
  else if -d.scale > trailingZeros then
    d.signText ++ String.ofList (natDigits d.digits.natAbs) ++ "e+" ++ toString (-d.scale)
  else d.toPlain

end PickupPoint.Decimal
