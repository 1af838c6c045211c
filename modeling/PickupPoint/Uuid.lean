/-
Universally unique identifiers: numbers of 128 bits, written as 32 hexadecimal digits in groups of 8, 4, 4, 4 and 12.
Reading takes either case, the digits without hyphens, the hyphenated form in braces, and the hyphenated form as a URN.
-/
import PickupPoint.Bits
import PickupPoint.Json.Token

namespace PickupPoint

structure Uuid where
  value : Nat
  deriving DecidableEq, Repr

namespace Uuid

/-- sets the bits of version 4, a random identifier, and of the common variant -/
def ofRandom (bits : Nat) : Uuid :=
  let low := bits % bitLimit 62
  let middle := bits / bitLimit 62 % bitLimit 12
  let high := bits / bitLimit 74 % bitLimit 48
  ⟨high * bitLimit 80 + 4 * bitLimit 76 + middle * bitLimit 64 + 2 * bitLimit 62 + low⟩

def isRandom (u : Uuid) : Bool := u.value / bitLimit 76 % bitLimit 4 == 4 && u.value / bitLimit 62 % bitLimit 2 == 2

/-- the last `count` hexadecimal digits -/
def hexDigits : Nat → Nat → List Char
  | 0, _ => []
  | count + 1, n => hexDigits count (n / 16) ++ [Nat.digitChar (n % 16)]

def toText (u : Uuid) : String :=
  let ds := hexDigits 32 u.value
  String.ofList (ds.take 8 ++ '-' :: (ds.drop 8).take 4 ++ '-' :: (ds.drop 12).take 4 ++
    '-' :: (ds.drop 16).take 4 ++ '-' :: ds.drop 20)

/-- the number of 32 hexadecimal digits -/
def ofHex? (ds : List Char) : Option Uuid :=
  if ds.length = 32 then
    (ds.foldlM (fun acc c => (Json.hexDigit? c).map (acc * 16 + ·)) 0).map Uuid.mk
  else none

/-- the hyphens stand after 8, 13, 18 and 23 characters of 36 -/
def ofHyphenated? (cs : List Char) : Option Uuid :=
  if cs.length = 36 ∧ [8, 13, 18, 23].all (cs[·]? == some '-') then
    ofHex? (cs.take 8 ++ (cs.drop 9).take 4 ++ (cs.drop 14).take 4 ++ (cs.drop 19).take 4 ++ cs.drop 24)
  else none

def urnStart : List Char := ['u', 'r', 'n', ':', 'u', 'u', 'i', 'd', ':']

def parse? (text : String) : Option Uuid :=
  let cs := text.toList
  if cs.length = 32 then ofHex? cs
  else if cs.length = 36 then ofHyphenated? cs
  else if cs.length = 38 ∧ cs.head? = some '{' ∧ cs.getLast? = some '}' then ofHyphenated? (cs.drop 1).dropLast
  else if cs.length = 45 ∧ cs.take 9 = urnStart then ofHyphenated? (cs.drop 9)
  else none

end Uuid
end PickupPoint
