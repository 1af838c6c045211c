/-
Numbers of a given count of bits, as machines keep them.
-/
namespace PickupPoint

/-- the first number that needs more bits than these -/
def bitLimit (bits : Nat) : Nat := 1 <<< bits

/-- the last number of so many bits -/
def maxOfBits (bits : Nat) : Nat := bitLimit bits - 1

/-- a number of so many bits, one of which is for the sign -/
def fitsSigned (bits : Nat) (n : Int) : Bool := -(bitLimit (bits - 1) : Int) ≤ n && n < bitLimit (bits - 1)

end PickupPoint
