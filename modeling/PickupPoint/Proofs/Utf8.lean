/-
Runes that are a text, and bytes that are ASCII.

Runes are intact just if they are the characters of a text (`intact?_eq_some_iff`). An ASCII byte is a character by
itself, and belongs to no other: whatever bytes stand before it, they decode as if nothing followed
(`decode_append`). So a text that is put between ASCII bytes decodes to itself between them.
-/
import Mathlib.Tactic.Common
import PickupPoint.Text.Utf8

namespace PickupPoint.Text

/-! ## Runes -/

theorem mapM_id_eq_some_iff {rs : List Rune} {cs : List Char} :
    rs.mapM (id : Rune → Option Char) = some cs ↔ rs = cs.map some := by
  induction rs generalizing cs with
  | nil => cases cs <;> simp
  | cons r rs ih =>
    rw [List.mapM_cons]
    cases r with
    | none => cases cs <;> simp
    | some c =>
      cases cs with
      | nil => simp [Option.bind_eq_some_iff]
      | cons c' cs => simp [Option.bind_eq_some_iff, ih, and_comm]

/-- Runes are an intact text if and only if they are its characters. -/
theorem intact?_eq_some_iff {rs : List Rune} {text : String} : intact? rs = some text ↔ rs = runes text := by
  rw [intact?, Option.map_eq_some_iff, runes]
  constructor
  · rintro ⟨cs, intact, rfl⟩
    rw [String.toList_ofList]
    exact mapM_id_eq_some_iff.1 intact
  · intro chars
    exact ⟨text.toList, mapM_id_eq_some_iff.2 chars, String.ofList_toList⟩

theorem intact?_runes (text : String) : intact? (runes text) = some text := intact?_eq_some_iff.2 rfl

/-! ## ASCII bytes -/

/-- the bytes of characters that have one each -/
def ascii (cs : List Char) : List UInt8 := cs.map fun c => c.toNat.toUInt8

theorem tail?_ascii {b : UInt8} (h : b < 0x80) : tail? b = none := by
  rw [tail?, if_neg]
  rintro ⟨low, -⟩
  exact absurd h (UInt8.not_lt.2 low)

theorem leading?_ascii {a : UInt8} (h : a < 0x80) (rest : List UInt8) :
    leading? a rest = some (Char.ofNat a.toNat, 0) := by
  rw [leading?, if_pos h]
  rfl

/-- A character takes no more bytes than there are. -/
theorem leading?_fits {a : UInt8} {rest : List UInt8} {c : Char} {more : Nat} (h : leading? a rest = some (c, more)) :
    more ≤ rest.length := by
  unfold leading? at h
  rcases rest with _ | ⟨x, _ | ⟨y, _ | ⟨z, rest⟩⟩⟩ <;> split_ifs at h <;>
    simp [Option.bind_eq_some_iff] at h <;> simp <;> omega

/-- What a byte begins does not go on into an ASCII byte. -/
theorem leading?_append (a : UInt8) (rest : List UInt8) {b : UInt8} (h : b < 0x80) (later : List UInt8) :
    leading? a (rest ++ b :: later) = leading? a rest := by
  unfold leading?
  rcases rest with _ | ⟨x, _ | ⟨y, _ | ⟨z, rest⟩⟩⟩ <;> simp [tail?_ascii h]

theorem decodeAfter_append (xs : List UInt8) {skip : Nat} (fits : skip ≤ xs.length) {b : UInt8} (h : b < 0x80)
    (later : List UInt8) : decodeAfter skip (xs ++ b :: later) = decodeAfter skip xs ++ decode (b :: later) := by
  induction xs generalizing skip with
  | nil =>
    obtain rfl : skip = 0 := Nat.le_zero.1 fits
    rfl
  | cons a xs ih =>
    cases skip with
    | succ skip => exact ih (Nat.le_of_succ_le_succ fits)
    | zero =>
      rw [List.cons_append, decodeAfter, decodeAfter, leading?_append a xs h]
      rcases ha : leading? a xs with _ | ⟨c, more⟩
      · exact congrArg (none :: ·) (ih (Nat.zero_le _))
      · exact congrArg (some c :: ·) (ih (leading?_fits ha))

theorem decode_append (xs : List UInt8) {b : UInt8} (h : b < 0x80) (later : List UInt8) :
    decode (xs ++ b :: later) = decode xs ++ decode (b :: later) :=
  decodeAfter_append xs (Nat.zero_le _) h later

theorem decode_ascii_append {cs : List Char} (h : ∀ c ∈ cs, c.toNat < 0x80) (later : List UInt8) :
    decode (ascii cs ++ later) = cs.map some ++ decode later := by
  induction cs with
  | nil => rfl
  | cons c cs ih =>
    have small : c.toNat < 0x80 := h c List.mem_cons_self
    have byte : c.toNat.toUInt8.toNat = c.toNat := by
      simp only [Nat.toUInt8, UInt8.toNat_ofNat']
      omega
    have low : c.toNat.toUInt8 < 0x80 := by
      rw [UInt8.lt_iff_toNat_lt, byte]
      exact small
    show decodeAfter 0 (c.toNat.toUInt8 :: (ascii cs ++ later)) = _
    rw [decodeAfter, leading?_ascii low, byte, Char.ofNat_toNat]
    exact congrArg (some c :: ·) (ih fun d hd => h d (List.mem_cons_of_mem _ hd))

theorem decode_ascii {cs : List Char} (h : ∀ c ∈ cs, c.toNat < 0x80) : decode (ascii cs) = cs.map some := by
  have whole := decode_ascii_append h []
  rwa [List.append_nil, show decode [] = [] from rfl, List.append_nil] at whole

/-- ASCII bytes on both sides of others stay what they are, and so do the others. -/
theorem decode_between {before after : List Char} (hbefore : ∀ c ∈ before, c.toNat < 0x80)
    (hafter : ∀ c ∈ after, c.toNat < 0x80) (bytes : List UInt8) :
    decode (ascii before ++ bytes ++ ascii after) = before.map some ++ decode bytes ++ after.map some := by
  rw [List.append_assoc, decode_ascii_append hbefore, List.append_assoc]
  refine congrArg (before.map some ++ ·) ?_
  cases after with
  | nil => simp [ascii]
  | cons c after =>
    rw [← decode_ascii hafter]
    refine decode_append bytes ?_ _
    have small : c.toNat < 0x80 := hafter c List.mem_cons_self
    rw [UInt8.lt_iff_toNat_lt]
    simp only [Nat.toUInt8, UInt8.toNat_ofNat']
    exact Nat.lt_of_le_of_lt (Nat.mod_le _ _) small

end PickupPoint.Text
