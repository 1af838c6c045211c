/-
The text of a price.

A price that passed its check is printed in plain notation (`toText_eq_toPlain`): it is too large for an exponent below
the point and too small for one above it, whatever its digits and its scale. Plain text is read digit by digit
(`parse_whole`, `parse_fraction`), so such a price reads back as what it is worth (`price_text`).
-/
import Mathlib.Data.List.TakeWhile
import PickupPoint.Proofs.Amounts
import PickupPoint.Proofs.Digits

namespace PickupPoint

open Text

namespace Decimal

/-- digits, and after a point some more, with neither a sign nor an exponent -/
inductive Plain : String → Prop
  | whole {ds : List Char} (some : ds ≠ []) (digits : ∀ c ∈ ds, (digit? c).isSome) : Plain (String.ofList ds)
  | fraction {ds fs : List Char} (some : ds ≠ []) (more : fs ≠ []) (digits : ∀ c ∈ ds ++ fs, (digit? c).isSome) :
    Plain (String.ofList ds ++ "." ++ String.ofList fs)

/-! ## Reading -/

section Reading

open Instant (digitsValue)

/-- A fold that refuses nothing is the plain fold. -/
theorem foldlM_ok {ε α β : Type} {f : α → β → Except ε α} {g : α → β → α} {items : List β}
    (h : ∀ b ∈ items, ∀ a, f a b = .ok (g a b)) (a : α) : items.foldlM f a = .ok (items.foldl g a) := by
  induction items generalizing a with
  | nil => rfl
  | cons b items ih =>
    rw [List.foldlM_cons, h b List.mem_cons_self a]
    exact ih (fun c hc => h c (List.mem_cons_of_mem b hc)) (g a b)

variable {ds : List Char} (digits : ∀ c ∈ ds, (digit? c).isSome)
include digits

theorem digit_ne {c : Char} (hc : c ∈ ds) {other : Char} (odd : digit? other = none) : c ≠ other := by
  rintro rfl
  simpa [odd] using digits c hc

theorem readMagnitude_digits (some : ds ≠ []) : readMagnitude ds = .ok (digitsValue ds) := by
  have plain : ∀ c ∈ ds, c ≠ '_' := fun c hc => digit_ne digits hc (by decide)
  unfold readMagnitude
  split
  · cases some rfl
  · cases plain _ List.mem_cons_self rfl
  · refine foldlM_ok (fun c hc acc => ?_) 0
    obtain ⟨d, hd⟩ := Option.isSome_iff_exists.1 (digits c hc)
    rw [if_neg (plain c hc), hd]
    rfl

theorem readSigned_digits (some : ds ≠ []) : readSigned ds = .ok (digitsValue ds : Int) := by
  obtain ⟨c, rest, rfl⟩ := List.exists_cons_of_ne_nil some
  have plus : c ≠ '+' := digit_ne digits List.mem_cons_self (by decide)
  have minus : c ≠ '-' := digit_ne digits List.mem_cons_self (by decide)
  have unsigned : readUnsigned (c :: rest) = readMagnitude (c :: rest) := by
    unfold readUnsigned
    split <;> rename_i h
    · cases h; cases plus rfl
    · cases h; cases plus rfl
    · rfl
  unfold readSigned
  split <;> rename_i h
  · cases h; cases minus rfl
  · cases h; cases minus rfl
  · rw [unsigned, readMagnitude_digits digits some]
    rfl

end Reading

/-- What reads as a decimal has a scale of 64 bits. -/
theorem parse_fits {text : String} {d : Decimal} (h : parse text = .ok d) : fitsSigned 64 d.scale = true := by
  simp only [parse, bind, Except.bind, throw, throwThe, MonadExceptOf.throw, pure, Except.pure] at h
  split at h
  · cases h
  split_ifs at h with blank fits
  split at h <;> cases h
  exact fits

/-- A whole number added to a decimal leaves its scale, or takes it to zero. -/
theorem add_ofNat_fits {d : Decimal} (fits : fitsSigned 64 d.scale = true) (n : Nat) :
    fitsSigned 64 (d.add (ofNat n)).scale = true := by
  have scale : (d.add (ofNat n)).scale = d.scale ∨ (d.add (ofNat n)).scale = 0 := by
    unfold add
    split_ifs
    · exact .inl rfl
    · exact .inr rfl
    · exact max_choice d.scale 0
  rcases scale with same | zero
  · rwa [same]
  · rw [zero]
    decide

/-- Text without a mark of an exponent is read as digits with a point. -/
theorem parse_unmarked {text : String} {ds : List Char} {places n : Nat} (some : text.toList ≠ [])
    (plain : ∀ c ∈ text.toList, isExponentMark c = false) (split : splitPoint text.toList = (ds, places))
    (number : readSigned ds = .ok n) (fits : fitsSigned 64 places = true) : parse text = .ok ⟨n, places⟩ := by
  have unmarked : ∀ c ∈ text.toList, (!isExponentMark c) = true := fun c hc => by rw [plain c hc]; rfl
  have exponent : readExponent text.toList = .ok 0 := by
    rw [readExponent, List.dropWhile_eq_nil_iff.2 unmarked]
  have nonempty : ¬ text.toList.isEmpty = true := by simpa using some
  have fits' : fitsSigned 64 ((places : Int) - 0) = true := by simpa only [Int.sub_zero] using fits
  simp only [parse, exponent, List.takeWhile_eq_self_iff.2 unmarked, split, number, bind, Except.bind, pure, Except.pure,
    Except.mapError]
  rw [if_neg nonempty, if_neg (not_not.2 fits'), Int.sub_zero]

section Plain

open Instant (digitsValue)

variable {ds fs : List Char}

theorem unmarked_of_digits (digits : ∀ c ∈ ds, (digit? c).isSome) : ∀ c ∈ ds, isExponentMark c = false := by
  intro c hc
  have small : c ≠ 'e' := digit_ne digits hc (by decide)
  have large : c ≠ 'E' := digit_ne digits hc (by decide)
  simp [isExponentMark, small, large]

theorem splitPoint_fraction (digits : ∀ c ∈ ds ++ fs, (digit? c).isSome) :
    splitPoint (ds ++ '.' :: fs) = (ds ++ fs, fs.length) := by
  have whole : ∀ c ∈ ds, decide (c ≠ '.') = true := fun c hc => by
    simpa using digit_ne digits (List.mem_append_left _ hc) (by decide)
  have counted : ∀ c ∈ fs, c ≠ '_' := fun c hc => digit_ne digits (List.mem_append_right _ hc) (by decide)
  unfold splitPoint
  rw [List.takeWhile_append_of_pos whole, List.dropWhile_append_of_pos whole]
  simpa using counted

theorem splitPoint_whole (digits : ∀ c ∈ ds, (digit? c).isSome) : splitPoint ds = (ds, 0) := by
  have whole : ∀ c ∈ ds, decide (c ≠ '.') = true := fun c hc => by simpa using digit_ne digits hc (by decide)
  unfold splitPoint
  rw [List.takeWhile_eq_self_iff.2 whole, List.dropWhile_eq_nil_iff.2 whole]
  simp

theorem parse_whole (some : ds ≠ []) (digits : ∀ c ∈ ds, (digit? c).isSome) :
    parse (String.ofList ds) = .ok ⟨digitsValue ds, 0⟩ := by
  have chars : (String.ofList ds).toList = ds := String.toList_ofList
  have number := readSigned_digits digits some
  refine parse_unmarked ?_ ?_ ?_ number (by decide) <;> rw [chars]
  · exact some
  · exact unmarked_of_digits digits
  · exact splitPoint_whole digits

theorem parse_fraction (some : ds ≠ []) (digits : ∀ c ∈ ds ++ fs, (digit? c).isSome)
    (fits : fitsSigned 64 fs.length = true) :
    parse (String.ofList ds ++ "." ++ String.ofList fs) = .ok ⟨digitsValue (ds ++ fs), fs.length⟩ := by
  have chars : (String.ofList ds ++ "." ++ String.ofList fs).toList = ds ++ '.' :: fs := by simp
  have number := readSigned_digits digits (List.append_ne_nil_of_left_ne_nil some fs)
  refine parse_unmarked ?_ ?_ ?_ number fits <;> rw [chars]
  · simp
  · have unmarked := unmarked_of_digits digits
    simp only [List.mem_append, List.mem_cons] at unmarked ⊢
    rintro c (hc | rfl | hc)
    · exact unmarked c (.inl hc)
    · rfl
    · exact unmarked c (.inr hc)
  · exact splitPoint_fraction digits

end Plain

/-! ## Printing -/

open Instant (digitsValue)

variable {d : Decimal}

theorem signText_of_pos (positive : 0 < d.digits) : d.signText = "" := if_neg (by omega)

theorem isSome_digit {k n : Nat} {c : Char} (h : c ∈ zeros k ∨ c ∈ natDigits n) : (digit? c).isSome := by
  rcases h with h | h
  · rw [List.eq_of_mem_replicate h]; rfl
  · exact digit?_of_mem h

/-- Without a point, zeros stand for the places that the scale leaves out. -/
theorem toPlain_whole (positive : 0 < d.digits) (whole : d.scale ≤ 0) :
    d.toPlain = String.ofList (natDigits d.digits.natAbs ++ zeros (-d.scale).toNat) := by
  unfold toPlain
  rw [signText_of_pos positive, if_pos whole, if_neg positive.ne', String.empty_append]

/-- With one, as many digits stand after it as the scale says. -/
theorem toPlain_fraction (positive : 0 < d.digits) (fraction : 0 < d.scale) :
    ∃ ds fs k, d.toPlain = String.ofList ds ++ "." ++ String.ofList fs ∧ ds ≠ [] ∧ (fs.length : Int) = d.scale ∧
      ds ++ fs = zeros k ++ natDigits d.digits.natAbs := by
  have places : (d.scale.toNat : Int) = d.scale := Int.toNat_of_nonneg fraction.le
  unfold toPlain
  rw [signText_of_pos positive, if_neg (not_le.2 fraction)]
  dsimp only
  rw [String.empty_append]
  set padded := zeros (d.scale.toNat + 1 - (natDigits d.digits.natAbs).length) ++ natDigits d.digits.natAbs with parts
  have long : d.scale.toNat < padded.length := by
    rw [parts, List.length_append, zeros, List.length_replicate]
    omega
  refine ⟨_, _, _, rfl, ?_, ?_, by rw [List.take_append_drop, parts]⟩
  · rw [← List.length_pos_iff, List.length_take]
    omega
  · rw [List.length_drop]
    omega

/-- What is printed without an exponent reads back as it was. -/
theorem toPlain_reads (positive : 0 < d.digits) (fits : fitsSigned 64 d.scale = true) :
    Plain d.toPlain ∧ ∃ d', parse d.toPlain = .ok d' ∧ d'.value = d.value := by
  rcases le_or_gt d.scale 0 with whole | fraction
  · have some : natDigits d.digits.natAbs ++ zeros (-d.scale).toNat ≠ [] :=
      List.append_ne_nil_of_left_ne_nil (natDigits_ne_nil _) _
    have digits : ∀ c ∈ natDigits d.digits.natAbs ++ zeros (-d.scale).toNat, (digit? c).isSome := fun c hc =>
      isSome_digit (List.mem_append.1 hc).symm
    rw [toPlain_whole positive whole]
    refine ⟨.whole some digits, _, parse_whole some digits, ?_⟩
    rw [← digitsAt_value whole, value_eq, digitsAt, if_neg positive.ne', zeros, digitsValue_append, digitsValue_zeros,
      digitsValue_natDigits, Nat.add_zero, Nat.cast_mul, Int.natAbs_of_nonneg positive.le, List.length_replicate,
      Int.zero_sub]
    rfl
  · obtain ⟨ds, fs, k, text, some, length, parts⟩ := toPlain_fraction positive fraction
    have digits : ∀ c ∈ ds ++ fs, (digit? c).isSome := fun c hc => isSome_digit (List.mem_append.1 (parts ▸ hc))
    have more : fs ≠ [] := List.length_pos_iff.1 (by omega)
    rw [← length] at fits
    rw [text]
    refine ⟨.fraction some more digits, _, parse_fraction some digits fits, ?_⟩
    rw [parts, zeros, digitsValue_append, digitsValue_zeros, digitsValue_natDigits, Nat.zero_mul, Nat.zero_add, length,
      Int.natAbs_of_nonneg positive.le]

/-! ## Prices -/

/-- A number with so many digits is below a power of ten. -/
theorem value_lt (positive : 0 < d.digits) :
    d.value < (10 : ℚ) ^ (((natDigits d.digits.natAbs).length : ℤ) - d.scale) := by
  have few : d.digits.natAbs < 10 ^ (natDigits d.digits.natAbs).length :=
    (Nat.length_toDigits_le_iff (by decide) (List.length_pos_iff.2 (natDigits_ne_nil _))).1 le_rfl
  have below : (d.digits : ℚ) < (10 : ℚ) ^ ((natDigits d.digits.natAbs).length : ℤ) := by
    rw [zpow_natCast]
    exact_mod_cast (Int.natAbs_of_nonneg positive.le) ▸ Int.ofNat_lt.2 few
  rw [sub_eq_add_neg, zpow_add₀ (by norm_num), value_eq]
  exact mul_lt_mul_of_pos_right below (place_pos _)

/-- Other than zero, it is no less than the value of its last digit. -/
theorem place_le_value (positive : 0 < d.digits) : place d.scale ≤ d.value := by
  rw [value_eq]
  exact le_mul_of_one_le_left (place_pos _).le (by exact_mod_cast positive)

/-- A hundredth is too large, and ten digits before the point are too few, for an exponent. -/
theorem toText_eq_toPlain (positive : 0 < d.digits) (low : 1 / 100 ≤ d.value) (high : d.value < 10 ^ 10) :
    d.toText = d.toPlain := by
  have near : ¬ d.scale - (natDigits d.digits.natAbs).length > leadingZeros := by
    intro far
    have tiny : d.value < (10 : ℚ) ^ (-5 : ℤ) :=
      (value_lt positive).trans_le (zpow_le_zpow_right₀ (by norm_num) (by unfold leadingZeros at far; omega))
    norm_num at tiny
    linarith
  have short : ¬ -d.scale > trailingZeros := by
    intro far
    have huge : (10 : ℚ) ^ (15 : ℤ) ≤ d.value :=
      le_trans (zpow_le_zpow_right₀ (by norm_num) (by unfold trailingZeros at far; omega)) (place_le_value positive)
    norm_num at huge
    linarith
  rw [toText, if_neg positive.ne', if_neg near, if_neg short]

/-- **The text of a price** is plain, and it reads back as what the price is worth. -/
theorem price_text {n : ℕ} (small : n < 10 ^ 12) (same : d.value = n / 100) (fits : fitsSigned 64 d.scale = true) :
    Plain d.toText ∧ ∃ d', parse d.toText = .ok d' ∧ d'.value = d.value := by
  have nonneg : 0 ≤ d.value := by rw [same]; positivity
  rcases (value_nonneg_iff.1 nonneg).eq_or_lt' with zero | positive
  · have text : d.toText = String.ofList ['0'] := if_pos zero
    have digits : ∀ c ∈ ['0'], (digit? c).isSome := by
      intro c hc
      rw [List.mem_singleton.1 hc]
      rfl
    rw [text, value_eq_zero_iff.2 zero]
    exact ⟨.whole (List.cons_ne_nil _ _) digits, _, parse_whole (List.cons_ne_nil _ _) digits, value_eq_zero_iff.2 rfl⟩
  · have some : 1 ≤ n := by
      rcases Nat.eq_zero_or_pos n with rfl | some
      · rw [← value_pos_iff, same] at positive
        simp at positive
      · exact some
    have low : (1 : ℚ) ≤ n := by exact_mod_cast some
    have high : (n : ℚ) < 10 ^ 12 := by exact_mod_cast small
    rw [toText_eq_toPlain positive (by rw [same]; linarith) (by rw [same]; linarith)]
    exact toPlain_reads positive fits

end Decimal

end PickupPoint
