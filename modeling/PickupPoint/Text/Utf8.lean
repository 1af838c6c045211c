/-
Bytes as UTF-8 text. Decoding never fails: a byte that belongs to no well-formed character becomes a rune without a
character, so a reader can tell where text is damaged and refuse it only if that part is kept.
-/
namespace PickupPoint.Text

/-- a character, or `none` for a byte outside every well-formed character -/
abbrev Rune := Option Char

/-- the six bits of a continuation byte -/
def tail? (b : UInt8) : Option Nat := if 0x80 ≤ b ∧ b ≤ 0xBF then some (b.toNat - 0x80) else none

/-- the character of a code point, surrogates and overlong forms excluded -/
def codePoint? (least n : Nat) : Option Char :=
  if least ≤ n ∧ n.isValidChar then some (Char.ofNat n) else none

/-- the character that starts with byte `a`, and how many of the bytes after it belong to it -/
def leading? (a : UInt8) (rest : List UInt8) : Option (Char × Nat) := do
  if a < 0x80 then return (Char.ofNat a.toNat, 0)
  else if 0xC2 ≤ a ∧ a ≤ 0xDF then
    return (← codePoint? 0x80 ((a.toNat - 0xC0) * 0x40 + (← tail? (← rest[0]?))), 1)
  else if 0xE0 ≤ a ∧ a ≤ 0xEF then
    let high := (a.toNat - 0xE0) * 0x40 + (← tail? (← rest[0]?))
    return (← codePoint? 0x800 (high * 0x40 + (← tail? (← rest[1]?))), 2)
  else if 0xF0 ≤ a ∧ a ≤ 0xF4 then
    let high := ((a.toNat - 0xF0) * 0x40 + (← tail? (← rest[0]?))) * 0x40 + (← tail? (← rest[1]?))
    return (← codePoint? 0x10000 (high * 0x40 + (← tail? (← rest[2]?))), 3)
  else none

/-- the runes after `skip` bytes of a character that has been read -/
def decodeAfter : Nat → List UInt8 → List Rune
  | _, [] => []
  | skip + 1, _ :: rest => decodeAfter skip rest
  | 0, a :: rest =>
    match leading? a rest with
    | some (c, more) => some c :: decodeAfter more rest
    | none => none :: decodeAfter 0 rest

def decode (bytes : List UInt8) : List Rune := decodeAfter 0 bytes

/-- the runes of an intact text -/
def runes (text : String) : List Rune := text.toList.map some

/-- the text, if no rune is damaged -/
def intact? (rs : List Rune) : Option String := (rs.mapM id).map String.ofList

/-- the text with a mark in place of each damaged rune -/
def lossy (rs : List Rune) : String := String.ofList (rs.map (·.getD '\ufffd'))

end PickupPoint.Text
