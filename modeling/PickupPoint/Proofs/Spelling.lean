/-
Which bytes are a text.

A character is spelled in one to four bytes, the first of which tells how many there are (`Spelling`). The decoder reads
a character where one is spelled (`Spelling.leading`) and nowhere else (`spelling_of_leading?`), whatever stands after
it. So decoding gives an intact text just for the UTF-8 bytes of that text (`intact?_decode_iff`): no other bytes pass
for it, and none of its own are lost.
-/
import Mathlib.Tactic.Common
import PickupPoint.Proofs.Utf8

namespace PickupPoint.Text

/-! ## Bytes and code points -/

theorem toNat_byte {n : Nat} (h : n < 256) : (UInt8.ofNat n).toNat = n := UInt8.toNat_ofNat_of_lt' h

theorem byte_of_le {a : UInt8} {k : Nat} (h : k ≤ a.toNat) : UInt8.ofNat (a.toNat - k + k) = a := by
  rw [Nat.sub_add_cancel h, UInt8.ofNat_toNat]

theorem tail?_byte {n : Nat} (h : n < 64) : tail? (UInt8.ofNat (n + 0x80)) = some n := by
  have byte : (UInt8.ofNat (n + 0x80)).toNat = n + 0x80 := toNat_byte (by omega)
  have range : 0x80 ≤ UInt8.ofNat (n + 0x80) ∧ UInt8.ofNat (n + 0x80) ≤ 0xBF := by
    rw [UInt8.le_iff_toNat_le, UInt8.le_iff_toNat_le, byte]
    exact ⟨Nat.le_add_left 0x80 n, Nat.add_le_add_right (Nat.le_of_lt_succ h) 0x80⟩
  rw [tail?, if_pos range, byte, Nat.add_sub_cancel]

theorem byte_of_tail? {b : UInt8} {n : Nat} (h : tail? b = some n) : b = UInt8.ofNat (n + 0x80) ∧ n < 64 := by
  unfold tail? at h
  split at h
  · rename_i range
    have low : 0x80 ≤ b.toNat := UInt8.le_iff_toNat_le.1 range.1
    have high : b.toNat ≤ 0xBF := UInt8.le_iff_toNat_le.1 range.2
    obtain rfl := Option.some.inj h
    exact ⟨(byte_of_le low).symm, by omega⟩
  · cases h

theorem toNat_ofNat {n : Nat} (h : n.isValidChar) : (Char.ofNat n).toNat = n := by
  rw [Char.ofNat, dif_pos h]
  rfl

theorem codePoint?_toNat {least : Nat} {c : Char} (h : least ≤ c.toNat) : codePoint? least c.toNat = some c := by
  rw [codePoint?, if_pos ⟨h, c.valid⟩, Char.ofNat_toNat]

theorem toNat_of_codePoint? {least n : Nat} {c : Char} (h : codePoint? least n = some c) :
    c.toNat = n ∧ least ≤ c.toNat := by
  unfold codePoint? at h
  split at h
  · rename_i valid
    obtain rfl := Option.some.inj h
    rw [toNat_ofNat valid.2]
    exact ⟨rfl, valid.1⟩
  · cases h

/-! ## Characters -/

/-- The bytes of a character: the first has the highest bits and tells how many follow, each of the others has six. A
character is never spelled in more bytes than it needs. -/
inductive Spelling (c : Char) : List UInt8 → Prop where
  | one (low : c.toNat < 0x80) : Spelling c [.ofNat c.toNat]
  | two {n t : Nat} (value : c.toNat = n * 64 + t) (least : 0x80 ≤ c.toNat) (hn : n < 32) (ht : t < 64) :
    Spelling c [.ofNat (n + 0xC0), .ofNat (t + 0x80)]
  | three {n t u : Nat} (value : c.toNat = (n * 64 + t) * 64 + u) (least : 0x800 ≤ c.toNat) (hn : n < 16) (ht : t < 64)
    (hu : u < 64) : Spelling c [.ofNat (n + 0xE0), .ofNat (t + 0x80), .ofNat (u + 0x80)]
  | four {n t u w : Nat} (value : c.toNat = ((n * 64 + t) * 64 + u) * 64 + w) (least : 0x10000 ≤ c.toNat) (hn : n < 5)
    (ht : t < 64) (hu : u < 64) (hw : w < 64) :
    Spelling c [.ofNat (n + 0xF0), .ofNat (t + 0x80), .ofNat (u + 0x80), .ofNat (w + 0x80)]

/-- A character has no other spelling than its encoding. -/
theorem Spelling.encoded {c : Char} {bytes : List UInt8} (h : Spelling c bytes) : bytes = String.utf8EncodeChar c := by
  have number : c.val.toNat = c.toNat := rfl
  simp only [String.utf8EncodeChar, number]
  cases h with
  | one low => rw [if_pos (by omega)]
  | @two n t value least hn ht =>
    have first : c.toNat / 64 % 32 = n := by omega
    have second : c.toNat % 64 = t := by omega
    rw [if_neg (by omega), if_pos (by omega), first, second]
  | @three n t u value least hn ht hu =>
    have first : c.toNat / 4096 % 16 = n := by omega
    have second : c.toNat / 64 % 64 = t := by omega
    have third : c.toNat % 64 = u := by omega
    rw [if_neg (by omega), if_neg (by omega), if_pos (by omega), first, second, third]
  | @four n t u w value least hn ht hu hw =>
    have first : c.toNat / 262144 % 8 = n := by omega
    have second : c.toNat / 4096 % 64 = t := by omega
    have third : c.toNat / 64 % 64 = u := by omega
    have fourth : c.toNat % 64 = w := by omega
    rw [if_neg (by omega), if_neg (by omega), if_neg (by omega), first, second, third, fourth]

theorem spelling_encoded (c : Char) : Spelling c (String.utf8EncodeChar c) := by
  have small : c.toNat < 0x110000 := by
    have valid : c.toNat.isValidChar := c.valid
    rcases valid with low | ⟨-, high⟩ <;> omega
  obtain ⟨bytes, spelled⟩ : ∃ bytes, Spelling c bytes := by
    by_cases one : c.toNat < 0x80
    · exact ⟨_, .one one⟩
    by_cases two : c.toNat < 0x800
    · exact ⟨_, .two (n := c.toNat / 64) (t := c.toNat % 64) (by omega) (by omega) (by omega) (by omega)⟩
    by_cases three : c.toNat < 0x10000
    · exact ⟨_, .three (n := c.toNat / 4096) (t := c.toNat / 64 % 64) (u := c.toNat % 64) (by omega) (by omega)
        (by omega) (by omega) (by omega)⟩
    · exact ⟨_, .four (n := c.toNat / 262144) (t := c.toNat / 4096 % 64) (u := c.toNat / 64 % 64) (w := c.toNat % 64)
        (by omega) (by omega) (by omega) (by omega) (by omega) (by omega)⟩
  exact spelled.encoded ▸ spelled

section Lead

variable {a : UInt8} {n : Nat}

theorem leading?_two (lead : a.toNat = n + 0xC0) (low : 2 ≤ n) (high : n < 32) (x : UInt8) (rest : List UInt8) :
    leading? a (x :: rest) = (tail? x).bind fun t => (codePoint? 0x80 (n * 64 + t)).bind fun c => some (c, 1) := by
  have range : ¬ n + 192 < 128 ∧ n ≤ 31 := by omega
  simp [leading?, UInt8.lt_iff_toNat_lt, UInt8.le_iff_toNat_le, lead, low, range]

theorem leading?_three (lead : a.toNat = n + 0xE0) (high : n < 16) (x y : UInt8) (rest : List UInt8) :
    leading? a (x :: y :: rest) =
      (tail? x).bind fun t => (tail? y).bind fun u =>
        (codePoint? 0x800 ((n * 64 + t) * 64 + u)).bind fun c => some (c, 2) := by
  have range : ¬ n + 224 < 128 ∧ n ≤ 15 := by omega
  simp [leading?, UInt8.lt_iff_toNat_lt, UInt8.le_iff_toNat_le, lead, range]

theorem leading?_four (lead : a.toNat = n + 0xF0) (high : n < 5) (x y z : UInt8) (rest : List UInt8) :
    leading? a (x :: y :: z :: rest) =
      (tail? x).bind fun t => (tail? y).bind fun u => (tail? z).bind fun w =>
        (codePoint? 0x10000 (((n * 64 + t) * 64 + u) * 64 + w)).bind fun c => some (c, 3) := by
  have range : ¬ n + 240 < 128 ∧ n ≤ 4 := by omega
  simp [leading?, UInt8.lt_iff_toNat_lt, UInt8.le_iff_toNat_le, lead, range]

end Lead

/-- A character is read where it is spelled. -/
theorem Spelling.leading {c : Char} {a : UInt8} {rest : List UInt8} (h : Spelling c (a :: rest))
    (later : List UInt8) : leading? a (rest ++ later) = some (c, rest.length) := by
  cases h with
  | one low =>
    have lead : (UInt8.ofNat c.toNat).toNat = c.toNat := toNat_byte (by omega)
    have ascii : UInt8.ofNat c.toNat < 0x80 := by
      rw [UInt8.lt_iff_toNat_lt, lead]
      exact low
    simp [leading?_ascii ascii, lead]
  | two value least hn ht =>
    rw [List.cons_append, leading?_two (toNat_byte (by omega)) (by omega) hn, tail?_byte ht, Option.bind_some, ← value,
      codePoint?_toNat least]
    rfl
  | three value least hn ht hu =>
    rw [List.cons_append, List.cons_append, leading?_three (toNat_byte (by omega)) hn, tail?_byte ht, Option.bind_some,
      tail?_byte hu, Option.bind_some, ← value, codePoint?_toNat least]
    rfl
  | four value least hn ht hu hw =>
    rw [List.cons_append, List.cons_append, List.cons_append, leading?_four (toNat_byte (by omega)) hn, tail?_byte ht,
      Option.bind_some, tail?_byte hu, Option.bind_some, tail?_byte hw, Option.bind_some, ← value,
      codePoint?_toNat least]
    rfl

/-- Where a character is read it is spelled. -/
theorem spelling_of_leading? {a : UInt8} {rest : List UInt8} {c : Char} {more : Nat}
    (h : leading? a rest = some (c, more)) : Spelling c (a :: rest.take more) := by
  simp only [leading?, Option.bind_eq_bind, Option.pure_def] at h
  -- the ranges of the first byte; in each, the bytes that are asked for are there
  split_ifs at h with one two three four
  · have low : a.toNat < 0x80 := UInt8.lt_iff_toNat_lt.1 one
    obtain ⟨rfl, rfl⟩ := Prod.mk.inj (Option.some.inj h)
    have value : (Char.ofNat a.toNat).toNat = a.toNat := toNat_ofNat (.inl (by omega))
    have spelled : Spelling (Char.ofNat a.toNat) _ := .one (by rw [value]; exact low)
    rwa [value, UInt8.ofNat_toNat] at spelled
  · simp only [Option.bind_eq_some_iff, Option.some.injEq, Prod.mk.injEq] at h
    obtain ⟨x, hx, t, tail, _, point, rfl, rfl⟩ := h
    have low : 0xC2 ≤ a.toNat := UInt8.le_iff_toNat_le.1 two.1
    have high : a.toNat ≤ 0xDF := UInt8.le_iff_toNat_le.1 two.2
    obtain ⟨rfl, ht⟩ := byte_of_tail? tail
    obtain ⟨value, least⟩ := toNat_of_codePoint? point
    rw [← byte_of_le (show 0xC0 ≤ a.toNat by omega)]
    simp only [List.take_add_one, List.take_zero, hx]
    exact .two value least (by omega) ht
  · simp only [Option.bind_eq_some_iff, Option.some.injEq, Prod.mk.injEq] at h
    obtain ⟨x, hx, t, tail, y, hy, u, tail', _, point, rfl, rfl⟩ := h
    have low : 0xE0 ≤ a.toNat := UInt8.le_iff_toNat_le.1 three.1
    have high : a.toNat ≤ 0xEF := UInt8.le_iff_toNat_le.1 three.2
    obtain ⟨rfl, ht⟩ := byte_of_tail? tail
    obtain ⟨rfl, hu⟩ := byte_of_tail? tail'
    obtain ⟨value, least⟩ := toNat_of_codePoint? point
    rw [← byte_of_le low]
    simp only [List.take_add_one, List.take_zero, hx, hy]
    exact .three value least (by omega) ht hu
  · simp only [Option.bind_eq_some_iff, Option.some.injEq, Prod.mk.injEq] at h
    obtain ⟨x, hx, t, tail, y, hy, u, tail', z, hz, w, tail'', _, point, rfl, rfl⟩ := h
    have low : 0xF0 ≤ a.toNat := UInt8.le_iff_toNat_le.1 four.1
    have high : a.toNat ≤ 0xF4 := UInt8.le_iff_toNat_le.1 four.2
    obtain ⟨rfl, ht⟩ := byte_of_tail? tail
    obtain ⟨rfl, hu⟩ := byte_of_tail? tail'
    obtain ⟨rfl, hw⟩ := byte_of_tail? tail''
    obtain ⟨value, least⟩ := toNat_of_codePoint? point
    rw [← byte_of_le low]
    simp only [List.take_add_one, List.take_zero, hx, hy, hz]
    exact .four value least (by omega) ht hu hw

/-! ## Texts -/

theorem decodeAfter_eq (skip : Nat) (bytes : List UInt8) : decodeAfter skip bytes = decode (bytes.drop skip) := by
  induction skip generalizing bytes with
  | zero => rfl
  | succ skip ih =>
    cases bytes with
    | nil => rfl
    | cons a rest => exact ih rest

theorem decode_encoded_append (c : Char) (later : List UInt8) :
    decode (String.utf8EncodeChar c ++ later) = some c :: decode later := by
  have spelled := spelling_encoded c
  rcases h : String.utf8EncodeChar c with _ | ⟨a, rest⟩
  · rw [h] at spelled
    cases spelled
  · rw [h] at spelled
    calc decode (a :: rest ++ later)
        = some c :: decodeAfter rest.length (rest ++ later) := by
          rw [List.cons_append, decode, decodeAfter, spelled.leading]
      _ = some c :: decode later := by rw [decodeAfter_eq, List.drop_left]

theorem decode_encoded (cs : List Char) : decode (cs.flatMap String.utf8EncodeChar) = cs.map some := by
  induction cs with
  | nil => rfl
  | cons c cs ih => rw [List.flatMap_cons, decode_encoded_append, ih, List.map_cons]

theorem encoded_of_decode {cs : List Char} {bytes : List UInt8} (h : decode bytes = cs.map some) :
    bytes = cs.flatMap String.utf8EncodeChar := by
  induction cs generalizing bytes with
  | nil =>
    cases bytes with
    | nil => rfl
    | cons a rest =>
      rw [decode, decodeAfter] at h
      split at h <;> cases h
  | cons c cs ih =>
    cases bytes with
    | nil => cases h
    | cons a rest =>
      rw [decode, decodeAfter] at h
      rcases read : leading? a rest with _ | ⟨c', more⟩
      · rw [read] at h
        cases h
      · rw [read] at h
        obtain ⟨hc, others⟩ := List.cons.inj h
        obtain rfl := Option.some.inj hc
        rw [decodeAfter_eq] at others
        calc a :: rest
            = (a :: rest.take more) ++ rest.drop more := by rw [List.cons_append, List.take_append_drop]
          _ = String.utf8EncodeChar c' ++ cs.flatMap String.utf8EncodeChar := by
            rw [(spelling_of_leading? read).encoded, ih others]

/-- the bytes of a text -/
def utf8 (text : String) : List UInt8 := text.toUTF8.data.toList

theorem utf8_eq (text : String) : utf8 text = text.toList.flatMap String.utf8EncodeChar := by
  rw [utf8, String.toUTF8_eq_toByteArray, ← String.utf8Encode_toList, List.utf8Encode, List.data_toByteArray]

/-- **Which bytes are a text.** Bytes decode to an intact text if and only if they are its UTF-8 bytes. -/
theorem intact?_decode_iff {bytes : List UInt8} {text : String} :
    intact? (decode bytes) = some text ↔ bytes = utf8 text := by
  rw [intact?_eq_some_iff, runes, utf8_eq]
  constructor
  · exact encoded_of_decode
  · rintro rfl
    exact decode_encoded text.toList

end PickupPoint.Text
