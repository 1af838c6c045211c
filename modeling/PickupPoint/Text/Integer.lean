/-
Integers written as text: an optional sign and ASCII digits, read into a bounded range. Reading goes from the left and
stops at the first character that is no digit or whose digit leaves the range, so of two faults the earlier one is
reported.
-/
namespace PickupPoint.Text

/-- why a text is no integer of the range -/
inductive IntegerFault where
  | empty
  | invalidDigit
  | tooLarge
  | tooSmall
  deriving DecidableEq, Repr

def IntegerFault.message : IntegerFault → String
  | .empty => "cannot parse integer from empty string"
  | .invalidDigit => "invalid digit found in string"
  | .tooLarge => "number too large to fit in target type"
  | .tooSmall => "number too small to fit in target type"

/-- value of an ASCII digit -/
def digit? (c : Char) : Option Nat :=
  if '0' ≤ c ∧ c ≤ '9' then some (c.toNat - '0'.toNat) else none

/-- the digits after `acc`, as long as the number stays at most `limit` -/
def readDigits (limit : Nat) (past : IntegerFault) : Nat → List Char → Except IntegerFault Nat
  | acc, [] => .ok acc
  | acc, c :: rest =>
    match digit? c with
    | none => .error .invalidDigit
    | some d => if acc * 10 + d ≤ limit then readDigits limit past (acc * 10 + d) rest else .error past

/-- A natural number of at most `limit`, with an optional plus sign. -/
def readNat (limit : Nat) (text : String) : Except IntegerFault Nat :=
  match text.toList with
  | [] => .error .empty
  | ['+'] => .error .invalidDigit
  | '+' :: ds => readDigits limit .tooLarge 0 ds
  | ds => readDigits limit .tooLarge 0 ds

/-- An integer of `-(limit + 1)` up to `limit`, with an optional sign. -/
def readInt (limit : Nat) (text : String) : Except IntegerFault Int :=
  match text.toList with
  | [] => .error .empty
  | ['+'] | ['-'] => .error .invalidDigit
  | '+' :: ds => (readDigits limit .tooLarge 0 ds).map Int.ofNat
  | '-' :: ds => (readDigits (limit + 1) .tooSmall 0 ds).map fun n => -Int.ofNat n
  | ds => (readDigits limit .tooLarge 0 ds).map Int.ofNat

/-- decimal digits of a number, the leading one first -/
def natDigits (n : Nat) : List Char := Nat.toDigits 10 n

/-- `n` in at least `width` digits -/
def padded (width n : Nat) : String :=
  String.ofList (List.replicate (width - (natDigits n).length) '0' ++ natDigits n)

end PickupPoint.Text
