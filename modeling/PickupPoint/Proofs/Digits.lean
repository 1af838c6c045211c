/-
Numbers written in decimal digits, and read back.

`natDigits` gives digits only, at least one, and no needless zero in front. Whichever way its readers go over them, they
come to the number again: `digitsValue` for any number, `wholeDigits` for one of 64 bits, which tells of a larger one
that digits were left out. `padded` puts zeros in front, and there are no other digits than what it gives
(`digits_iff_padded`); so a text reads as a number of a range just if it is that number in some count of digits, a plus
sign before them or not (`readNat_eq_ok_iff`).
-/
import Mathlib.Algebra.Group.Nat.Defs
import Mathlib.Data.List.Induction
import Mathlib.Tactic.Common
import PickupPoint.Json.Value
import PickupPoint.Time.Text

namespace PickupPoint

open Text

/-- The last digit comes off the end. -/
theorem natDigits_eq (n : Nat) :
    natDigits n = (if n < 10 then [] else natDigits (n / 10)) ++ [Nat.digitChar (n % 10)] := by
  unfold natDigits
  rw [Nat.toDigits_eq_if (by omega)]
  split
  · rw [Nat.mod_eq_of_lt ‹_›]; rfl
  · rfl

theorem natDigits_ne_nil (n : Nat) : natDigits n ≠ [] := Nat.toDigits_ne_nil

theorem digit?_digitChar {d : Nat} (h : d < 10) : digit? (Nat.digitChar d) = some d := by
  have all : ∀ d < 10, digit? (Nat.digitChar d) = some d := by decide
  exact all d h

theorem digitChar_of_digit? {c : Char} {d : Nat} (h : digit? c = some d) : d < 10 ∧ Nat.digitChar d = c := by
  unfold digit? at h
  split at h
  · rename_i range
    have low : 48 ≤ c.toNat := UInt32.le_iff_toNat_le.1 range.1
    have high : c.toNat ≤ 57 := UInt32.le_iff_toNat_le.1 range.2
    have all : ∀ n < 58, 48 ≤ n → Nat.digitChar (n - 48) = Char.ofNat n := by decide
    obtain rfl : c.toNat - 48 = d := Option.some.inj h
    refine ⟨by omega, ?_⟩
    rw [all c.toNat (by omega) low, Char.ofNat_toNat]
  · cases h

theorem digit?_of_mem {n : Nat} {c : Char} (h : c ∈ natDigits n) : (digit? c).isSome = true := by
  induction n using Nat.strongRecOn with
  | ind n ih =>
    rw [natDigits_eq] at h
    rcases List.mem_append.1 h with h | h
    · split at h
      · cases h
      · exact ih (n / 10) (by omega) h
    · rw [List.mem_singleton.1 h, digit?_digitChar (Nat.mod_lt n (by omega))]; rfl

/-- A number of several digits does not begin with a zero. -/
theorem natDigits_head {n : Nat} (h : 1 < (natDigits n).length) : (natDigits n).head? ≠ some '0' := by
  induction n using Nat.strongRecOn with
  | ind n ih =>
    rw [natDigits_eq] at h ⊢
    split at h
    · simp at h
    rename_i hn
    rw [if_neg hn]
    rcases hd : natDigits (n / 10) with _ | ⟨c, rest⟩
    · exact absurd hd (natDigits_ne_nil _)
    · rw [List.cons_append, List.head?_cons]
      rcases rest with _ | ⟨c', rest⟩
      · -- a single digit before the last one, which is none but zero if the number has one digit
        rw [natDigits_eq] at hd
        have small : n / 10 < 10 := by
          by_contra hge
          rw [if_neg hge] at hd
          have := congrArg List.length hd
          simp [List.length_eq_zero_iff, natDigits_ne_nil] at this
        rw [if_pos small] at hd
        have all : ∀ d < 10, 0 < d → Nat.digitChar d ≠ '0' := by decide
        have digit : Nat.digitChar (n / 10 % 10) = c := by simpa using hd
        rw [← digit, Nat.mod_eq_of_lt small]
        exact fun h0 => all (n / 10) small (by omega) (Option.some.inj h0)
      · have := ih (n / 10) (by omega) (by rw [hd]; simp)
        rwa [hd] at this

/-! ## Reading -/

theorem digitsValue_concat (ds : List Char) (c : Char) :
    Instant.digitsValue (ds ++ [c]) = Instant.digitsValue ds * 10 + (digit? c).getD 0 := by
  simp [Instant.digitsValue]

theorem digitsValue_append (ds es : List Char) :
    Instant.digitsValue (ds ++ es) = Instant.digitsValue ds * 10 ^ es.length + Instant.digitsValue es := by
  induction es using List.reverseRecOn with
  | nil => simp [Instant.digitsValue]
  | append_singleton es c ih =>
    rw [← List.append_assoc, digitsValue_concat, digitsValue_concat, ih, List.length_append, List.length_singleton,
      Nat.pow_succ, Nat.add_mul, Nat.mul_assoc, Nat.add_assoc]

theorem digitsValue_cons (c : Char) (ds : List Char) :
    Instant.digitsValue (c :: ds) = (digit? c).getD 0 * 10 ^ ds.length + Instant.digitsValue ds := by
  simpa [Instant.digitsValue] using digitsValue_append [c] ds

@[simp]
theorem digitsValue_zeros (n : Nat) : Instant.digitsValue (List.replicate n '0') = 0 := by
  induction n with
  | zero => rfl
  | succ n ih => exact ih

theorem digitsValue_natDigits (n : Nat) : Instant.digitsValue (natDigits n) = n := by
  induction n using Nat.strongRecOn with
  | ind n ih =>
    rw [natDigits_eq, digitsValue_concat, digit?_digitChar (Nat.mod_lt n (by omega)), Option.getD_some]
    split
    · rw [Instant.digitsValue, List.foldl_nil]
      omega
    · rw [ih (n / 10) (by omega)]
      omega

/-- A number of 64 bits is read as it is; of a larger one digits are left out. -/
theorem wholeDigits_natDigits (n : Nat) :
    (n ≤ Json.maxNatural → Json.wholeDigits (natDigits n) = (n, 0)) ∧
      (Json.maxNatural < n → (Json.wholeDigits (natDigits n)).2 ≠ 0) := by
  unfold Json.wholeDigits
  induction n using Nat.strongRecOn with
  | ind n ih =>
    rw [natDigits_eq]
    have last : digit? (Nat.digitChar (n % 10)) = some (n % 10) := digit?_digitChar (Nat.mod_lt n (by omega))
    split
    · rename_i hn
      have small : n ≤ Json.maxNatural := Nat.le_trans (Nat.le_of_lt hn) (by decide)
      rw [Nat.mod_eq_of_lt hn] at last ⊢
      refine ⟨fun _ => ?_, fun h => absurd small (Nat.not_le.2 h)⟩
      simp [last, small]
    · rw [List.foldl_append]
      have number : n / 10 * 10 + n % 10 = n := by omega
      obtain ⟨fits, dropped⟩ := ih (n / 10) (by omega)
      constructor
      · intro h
        rw [fits (by omega)]
        simp [last, number, h]
      · intro h
        rcases Nat.lt_or_ge Json.maxNatural (n / 10) with hlarge | hsmall
        · simp [last, dropped hlarge]
        · rw [fits hsmall]
          simp [last, number, Nat.not_le.2 h]

/-! ## Padding -/

theorem toList_padded (width n : Nat) :
    (padded width n).toList = List.replicate (width - (natDigits n).length) '0' ++ natDigits n :=
  String.toList_ofList

theorem digit?_of_mem_padded {width n : Nat} {c : Char} (h : c ∈ (padded width n).toList) :
    (digit? c).isSome = true := by
  rw [toList_padded] at h
  rcases List.mem_append.1 h with h | h
  · rw [List.eq_of_mem_replicate h]; rfl
  · exact digit?_of_mem h

theorem digitsValue_padded (width n : Nat) : Instant.digitsValue (padded width n).toList = n := by
  rw [toList_padded, digitsValue_append, digitsValue_zeros, digitsValue_natDigits, Nat.zero_mul, Nat.zero_add]

theorem length_padded {width n : Nat} (hw : 0 < width) (h : n < 10 ^ width) :
    (padded width n).toList.length = width := by
  have short : (natDigits n).length ≤ width := (Nat.length_toDigits_le_iff (by omega) hw).2 h
  rw [toList_padded, List.length_append, List.length_replicate]
  omega

theorem padded_ne_nil (width n : Nat) : (padded width n).toList ≠ [] := by
  rw [toList_padded]
  exact List.append_ne_nil_of_right_ne_nil _ (natDigits_ne_nil n)

/-- One more digit goes to the end. -/
theorem toList_padded_concat {width n d : Nat} (hw : 0 < width) (hd : d < 10) :
    (padded (width + 1) (n * 10 + d)).toList = (padded width n).toList ++ [Nat.digitChar d] := by
  have head : (n * 10 + d) / 10 = n := by omega
  have last : (n * 10 + d) % 10 = d := by omega
  rw [toList_padded, toList_padded, natDigits_eq (n * 10 + d), head, last]
  split
  · -- nothing but zeros before the last digit
    obtain rfl : n = 0 := by omega
    have zero : natDigits 0 = ['0'] := rfl
    have zeros : List.replicate width '0' = List.replicate (width - 1) '0' ++ ['0'] := by
      rw [← List.replicate_succ', Nat.sub_add_cancel hw]
    simp [zero, zeros]
  · simp

/-- Digits are the number that they make up, in as many digits. -/
theorem toList_padded_digitsValue {ds : List Char} (nonempty : ds ≠ []) (digits : ∀ c ∈ ds, (digit? c).isSome = true) :
    (padded ds.length (Instant.digitsValue ds)).toList = ds := by
  induction ds using List.reverseRecOn with
  | nil => exact absurd rfl nonempty
  | append_singleton ds c ih =>
    obtain ⟨d, hd⟩ := Option.isSome_iff_exists.1 (digits c (by simp))
    obtain ⟨small, written⟩ := digitChar_of_digit? hd
    rw [digitsValue_concat, hd, Option.getD_some, List.length_append, List.length_singleton]
    by_cases first : ds = []
    · subst first
      simp [Instant.digitsValue, toList_padded, natDigits, Nat.toDigits_of_lt_base small, written]
    · have before := ih first fun c' hc' => digits c' (by simp [hc'])
      rw [toList_padded_concat (List.length_pos_iff.2 first) small, before, written]

/-- Digits that make up a number are the number in some count of digits, and nothing else is. -/
theorem digits_iff_padded {ds : List Char} {n : Nat} :
    (ds ≠ [] ∧ (∀ c ∈ ds, (digit? c).isSome = true) ∧ Instant.digitsValue ds = n) ↔
      ∃ width, ds = (padded width n).toList := by
  constructor
  · rintro ⟨nonempty, digits, rfl⟩
    exact ⟨ds.length, (toList_padded_digitsValue nonempty digits).symm⟩
  · rintro ⟨width, rfl⟩
    exact ⟨padded_ne_nil width n, fun c => digit?_of_mem_padded, digitsValue_padded width n⟩

/-! ## Numbers within a range -/

/-- What follows the digits of `acc` is read if and only if it is digits and the whole number is in range. -/
theorem readDigits_eq_ok_iff {limit acc n : Nat} {past : IntegerFault} {ds : List Char} (fits : acc ≤ limit) :
    readDigits limit past acc ds = .ok n ↔
      (∀ c ∈ ds, (digit? c).isSome = true) ∧ acc * 10 ^ ds.length + Instant.digitsValue ds = n ∧ n ≤ limit := by
  induction ds generalizing acc with
  | nil =>
    have value : acc * 10 ^ ([] : List Char).length + Instant.digitsValue [] = acc := by simp [Instant.digitsValue]
    rw [value, readDigits]
    constructor
    · rintro ⟨⟩
      exact ⟨nofun, rfl, fits⟩
    · rintro ⟨-, rfl, -⟩
      rfl
  | cons c ds ih =>
    rw [readDigits, digitsValue_cons, List.forall_mem_cons, List.length_cons]
    cases digit? c with
    | none => simp
    | some d =>
      have value : acc * 10 ^ (ds.length + 1) + (d * 10 ^ ds.length + Instant.digitsValue ds) =
          (acc * 10 + d) * 10 ^ ds.length + Instant.digitsValue ds := by
        rw [Nat.pow_succ', ← Nat.mul_assoc, ← Nat.add_assoc, ← Nat.add_mul]
      simp only [Option.isSome_some, Option.getD_some, true_and, value]
      split
      · rename_i fits'
        exact ih fits'
      · rename_i past
        -- what is read so far is at most what all of the digits make up
        have grows : acc * 10 + d ≤ (acc * 10 + d) * 10 ^ ds.length :=
          Nat.le_mul_of_pos_right _ (Nat.pow_pos (by omega))
        constructor
        · intro read
          cases read
        · rintro ⟨-, whole, inside⟩
          omega

/-- `n` in decimal digits, with zeros in front or not, and with a plus sign or not -/
def Denotes (text : String) (n : Nat) : Prop := ∃ width, text = padded width n ∨ text = "+" ++ padded width n

theorem denotes_iff {text : String} {n : Nat} :
    Denotes text n ↔ ∃ width, text.toList = (padded width n).toList ∨ text.toList = '+' :: (padded width n).toList := by
  simp [Denotes, ← String.toList_inj]

theorem plus_ne_padded (ds : List Char) (width n : Nat) : '+' :: ds ≠ (padded width n).toList := by
  intro same
  have digit := digit?_of_mem_padded (same ▸ List.mem_cons_self)
  exact absurd digit (by decide)

theorem denotes_natDigits (n : Nat) : Denotes (String.ofList (natDigits n)) n := ⟨0, .inl (by simp [padded])⟩

/-- **Which texts are numbers.** A number is read if and only if it is in range and the text is its decimal digits. -/
theorem readNat_eq_ok_iff {limit n : Nat} {text : String} :
    readNat limit text = .ok n ↔ n ≤ limit ∧ Denotes text n := by
  have read : ∀ ds : List Char, ds ≠ [] →
      (readDigits limit .tooLarge 0 ds = .ok n ↔ n ≤ limit ∧ ∃ width, ds = (padded width n).toList) := by
    intro ds nonempty
    rw [readDigits_eq_ok_iff (Nat.zero_le limit), ← digits_iff_padded, Nat.zero_mul, Nat.zero_add]
    tauto
  have some : ∀ width, [] ≠ (padded width n).toList := fun width => (padded_ne_nil width n).symm
  rw [denotes_iff, readNat]
  split
  · rename_i empty
    simp [empty, some]
  · rename_i lone
    simp [lone, plus_ne_padded, some]
  · rename_i ds lone signed
    rw [signed, read ds (by rintro rfl; exact lone rfl)]
    simp [plus_ne_padded]
  · rename_i ds nonempty _ unsigned
    rw [read text.toList nonempty]
    have bare : ∀ width, text.toList ≠ '+' :: (padded width n).toList := fun width => unsigned _
    simp [bare]

end PickupPoint
