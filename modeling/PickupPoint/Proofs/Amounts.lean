/-
What decimals are worth.

A decimal of any digits and any scale stands for a rational number. `compare` orders the numbers (`compare_compares`),
wherever it stops raising ten to a power. `add` adds them (`value_add`), whichever of two scales it works at and whether
or not it returns an operand as it stands. What `truncate` returns has the value that it was given just if that is a
whole number of units of the scale (`truncate_value_iff`).

So a price passes its check just if it is a whole number of hundredths, not negative and below ten to the tenth
(`Order.checkPrice_ok_iff`), however it is written.
-/
import Mathlib.Algebra.Order.Field.Rat
import Mathlib.Algebra.Order.Field.Power
import Mathlib.Data.Rat.Cast.Order
import Mathlib.Order.Compare
import Mathlib.Tactic.FieldSimp
import Mathlib.Tactic.Linarith
import Mathlib.Tactic.Positivity
import Mathlib.Tactic.Ring
import PickupPoint.Order.Basic

namespace PickupPoint

namespace Decimal

/-- the number that a decimal stands for -/
def value (d : Decimal) : ℚ := d.digits * (10 : ℚ) ^ (-d.scale)

/-- the value of a digit at a scale -/
def place (scale : Int) : ℚ := (10 : ℚ) ^ (-scale)

theorem place_pos (scale : Int) : 0 < place scale := zpow_pos (by norm_num) _

/-- A digit is worth a power of ten at a larger scale. -/
theorem place_eq_pow {a b : Int} (h : a ≤ b) : place a = ((10 ^ (b - a).toNat : ℕ) : ℚ) * place b := by
  have nonneg : ((b - a).toNat : Int) = b - a := Int.toNat_of_nonneg (by omega)
  have power : ((10 ^ (b - a).toNat : ℕ) : ℚ) = (10 : ℚ) ^ (b - a) := by
    rw [← nonneg, zpow_natCast, Nat.cast_pow, nonneg]
    rfl
  rw [power, place, place, ← zpow_add₀ (by norm_num)]
  congr 1
  omega

theorem value_eq (d : Decimal) : d.value = d.digits * place d.scale := rfl

@[simp]
theorem value_ofNat (n : Nat) : (ofNat n).value = n := by simp [value, ofNat]

@[simp]
theorem value_zero : zero.value = 0 := by simp [zero]

theorem value_pos_iff {d : Decimal} : 0 < d.value ↔ 0 < d.digits := by
  rw [value_eq, mul_pos_iff_of_pos_right (place_pos _), Int.cast_pos]

theorem value_neg_iff {d : Decimal} : d.value < 0 ↔ d.digits < 0 := by
  rw [value_eq, Rat.mul_neg_iff_of_pos_right (place_pos _), Int.cast_lt_zero]

theorem value_nonneg_iff {d : Decimal} : 0 ≤ d.value ↔ 0 ≤ d.digits := by
  rw [← not_lt, value_neg_iff, not_lt]

theorem value_nonpos_iff {d : Decimal} : d.value ≤ 0 ↔ d.digits ≤ 0 := by
  rw [← not_lt, value_pos_iff, not_lt]

theorem value_eq_zero_iff {d : Decimal} : d.value = 0 ↔ d.digits = 0 := by
  rw [value_eq, mul_eq_zero_iff_right (place_pos _).ne', Int.cast_eq_zero]

/-- The digits at a scale that is at least its own say what a decimal is worth. -/
theorem digitsAt_value {d : Decimal} {scale : Int} (h : d.scale ≤ scale) :
    (d.digitsAt scale : ℚ) * place scale = d.value := by
  unfold digitsAt
  split_ifs with zero
  · simp [value_eq, zero]
  · rw [value_eq, place_eq_pow h]
    simp [Nat.pow_eq, mul_assoc]

/-! ## Order -/

/-- where a power of ten has passed a number -/
theorem lt_ten_pow {n k : Nat} (h : n.log2 + 1 ≤ k) : n < 10 ^ k :=
  calc n < 2 ^ (n.log2 + 1) := Nat.lt_log2_self
    _ ≤ 10 ^ (n.log2 + 1) := Nat.pow_le_pow_left (by decide) _
    _ ≤ 10 ^ k := Nat.pow_le_pow_right (by decide) h

/-- The power may stop where it has passed `a`. -/
theorem compareShifted_compares {a b : Nat} (places : Nat) (hb : 0 < b) :
    (compareShifted a b places).Compares a (b * 10 ^ places) := by
  unfold compareShifted
  rcases Nat.le_total places (a.log2 + 1) with reached | stopped
  · rw [Nat.min_eq_left reached]
    exact (compare_iff _ _).1 rfl
  have passed : a < b * 10 ^ (a.log2 + 1) :=
    (lt_ten_pow le_rfl).trans_le (Nat.le_mul_of_pos_left _ hb)
  rw [Nat.min_eq_right stopped, Nat.pow_eq, Nat.compare_eq_lt.2 passed]
  exact passed.trans_le (Nat.mul_le_mul_left _ (Nat.pow_le_pow_right (by decide) stopped))

theorem abs_value (d : Decimal) : |d.value| = (d.digits.natAbs : ℚ) * place d.scale := by
  rw [value_eq, abs_mul, abs_of_pos (place_pos _), Nat.cast_natAbs, Int.cast_abs]

theorem strictMono_place (scale : Int) : StrictMono fun n : ℕ => (n : ℚ) * place scale :=
  fun _ _ below => mul_lt_mul_of_pos_right (Nat.cast_lt.2 below) (place_pos scale)

/-- A comparison at the larger of two scales. -/
theorem compareShifted_place {a b : Nat} {s t : Int} (h : t ≤ s) (hb : 0 < b) :
    (compareShifted a b (s - t).toNat).Compares ((a : ℚ) * place s) ((b : ℚ) * place t) := by
  rw [place_eq_pow h, ← mul_assoc, ← Nat.cast_mul]
  exact (strictMono_place s).compares.2 (compareShifted_compares _ hb)

theorem compareMagnitude_compares {a b : Decimal} (ha : a.digits ≠ 0) (hb : b.digits ≠ 0) :
    (compareMagnitude a b).Compares |a.value| |b.value| := by
  rw [abs_value, abs_value]
  unfold compareMagnitude
  split_ifs with below
  · exact Ordering.compares_swap.2 (compareShifted_place below (Int.natAbs_pos.2 ha))
  · exact compareShifted_place (by omega) (Int.natAbs_pos.2 hb)

theorem value_lt_of_sign_lt {a b : Decimal} (h : a.digits.sign < b.digits.sign) : a.value < b.value := by
  have apart : (a.digits < 0 ∧ 0 ≤ b.digits) ∨ (a.digits ≤ 0 ∧ 0 < b.digits) := by
    grind [Int.sign_eq_neg_one_of_neg, Int.sign_eq_one_of_pos]
  rcases apart with ⟨ha, hb⟩ | ⟨ha, hb⟩
  · exact (value_neg_iff.2 ha).trans_le (value_nonneg_iff.2 hb)
  · exact (value_nonpos_iff.2 ha).trans_lt (value_pos_iff.2 hb)

/-- Decimals are ordered as the numbers that they stand for. -/
theorem compare_compares (a b : Decimal) : (a.compare b).Compares a.value b.value := by
  unfold compare
  split_ifs with decided positive
  · rcases lt_trichotomy a.digits.sign b.digits.sign with below | same | above
    · rw [compare_lt_iff_lt.2 below]
      exact value_lt_of_sign_lt below
    · have ha : a.digits = 0 := decided.resolve_left (not_not.2 same)
      have hb : b.digits = 0 := by rwa [ha, Int.sign_zero, eq_comm, Int.sign_eq_zero_iff_zero] at same
      rw [compare_eq_iff_eq.2 same]
      exact (value_eq_zero_iff.2 ha).trans (value_eq_zero_iff.2 hb).symm
    · rw [compare_gt_iff_gt.2 above]
      exact value_lt_of_sign_lt above
  all_goals
    obtain ⟨same, ha⟩ := not_or.1 decided
    rw [not_not] at same
  · have hb : 0 < b.digits := by rwa [← Int.sign_eq_one_iff_pos, ← same, Int.sign_eq_one_iff_pos]
    rw [← abs_of_pos (value_pos_iff.2 positive), ← abs_of_pos (value_pos_iff.2 hb)]
    exact compareMagnitude_compares ha hb.ne'
  · have negative : a.digits < 0 := by omega
    have hb : b.digits < 0 := by rwa [← Int.sign_eq_neg_one_iff_neg, ← same, Int.sign_eq_neg_one_iff_neg]
    have swapped := compareMagnitude_compares hb.ne ha
    rw [abs_of_neg (value_neg_iff.2 negative), abs_of_neg (value_neg_iff.2 hb)] at swapped
    have negated : StrictAnti fun x : ℚ => -x := fun _ _ => neg_lt_neg
    exact negated.compares.1 swapped

theorem lt_iff {a b : Decimal} : a.lt b = true ↔ a.value < b.value := by
  rw [lt, beq_iff_eq, (compare_compares a b).eq_lt]

theorem sameValue_iff {a b : Decimal} : a.sameValue b = true ↔ a.value = b.value := by
  rw [sameValue, beq_iff_eq, (compare_compares a b).eq_eq]

/-! ## Arithmetic -/

@[simp]
theorem value_add (a b : Decimal) : (a.add b).value = a.value + b.value := by
  unfold add
  split_ifs with hb ha
  · rw [value_eq_zero_iff.2 hb, add_zero]
  · rw [value_eq_zero_iff.2 ha, zero_add]
  · rw [← digitsAt_value (le_max_left a.scale b.scale), ← digitsAt_value (le_max_right a.scale b.scale), ← add_mul,
      ← Int.cast_add]
    rfl

/-- The power may stop where a unit is more than all the digits, since no unit is left then anyway. -/
theorem tdiv_unit (digits : Int) (places : Nat) :
    digits.tdiv (unit digits.natAbs places) = digits.tdiv (10 ^ places : Nat) := by
  unfold unit
  rcases Nat.le_total places (digits.natAbs.log2 + 2) with reached | stopped
  · rw [Nat.min_eq_left reached, Nat.pow_eq]
  have none : ∀ k, digits.natAbs.log2 + 2 ≤ k → digits.tdiv (10 ^ k : Nat) = 0 := by
    intro k far
    have small : digits.natAbs < 10 ^ k := lt_ten_pow (by omega)
    rw [← Int.natAbs_eq_zero, Int.natAbs_tdiv, Int.natAbs_natCast]
    exact Nat.div_eq_of_lt small
  rw [Nat.min_eq_right stopped, Nat.pow_eq, none _ le_rfl, none _ stopped]

/-- The digits of a whole number of units end in zeros. -/
theorem digits_of_whole {d : Decimal} {scale n : Int} (below : scale ≤ d.scale) (whole : d.value = n * place scale) :
    d.digits = n * (10 ^ (d.scale - scale).toNat : Nat) := by
  rw [place_eq_pow below, value_eq, ← mul_assoc] at whole
  exact_mod_cast mul_right_cancel₀ (place_pos _).ne' whole

/-- What is truncated keeps its value just if it is a whole number of units. -/
theorem truncate_value_iff {d : Decimal} {scale : Int} :
    (d.truncate scale).value = d.value ↔ ∃ n : Int, d.value = n * place scale := by
  constructor
  · intro same
    rw [← same]
    unfold truncate
    split_ifs <;> exact ⟨_, rfl⟩
  · rintro ⟨n, whole⟩
    unfold truncate
    split_ifs with fits
    · exact digitsAt_value fits
    rw [tdiv_unit, digits_of_whole (by omega) whole, Int.mul_tdiv_cancel _ (by positivity), whole]
    rfl

end Decimal

/-! ## Prices -/

namespace Order

/-- What each part of the check asks of the number. -/
theorem checkPrice_passes {o : Order} :
    o.checkPrice = .ok () ↔ 0 ≤ o.price.value ∧ (∃ n : ℤ, o.price.value = n * Decimal.place priceScale) ∧
      o.price.value < (10 ^ priceDigits : ℕ) := by
  rw [← Decimal.truncate_value_iff, ← Decimal.sameValue_iff, ← Decimal.value_ofNat, ← Decimal.lt_iff,
    ← Decimal.value_zero, ← not_lt, ← Decimal.lt_iff]
  unfold checkPrice
  dsimp only
  split_ifs with negative exact below <;> simp_all

/-- A price passes just if it is so many hundredths, with twelve digits at most. -/
theorem checkPrice_ok_iff {o : Order} :
    o.checkPrice = .ok () ↔ ∃ n : ℕ, n < 10 ^ 12 ∧ o.price.value = n / 100 := by
  have hundredth : Decimal.place priceScale = 1 / 100 := by norm_num [Decimal.place, priceScale]
  rw [checkPrice_passes, hundredth, priceDigits]
  constructor
  · rintro ⟨nonneg, ⟨n, whole⟩, below⟩
    have sign : 0 ≤ n := by
      have : (0 : ℚ) ≤ n := by linarith
      exact_mod_cast this
    obtain ⟨n, rfl⟩ := Int.eq_ofNat_of_zero_le sign
    refine ⟨n, ?_, by simpa [div_eq_mul_inv] using whole⟩
    have : (n : ℚ) < 10 ^ 12 := by
      push_cast at below whole
      linarith
    exact_mod_cast this
  · rintro ⟨n, below, same⟩
    have bound : (n : ℚ) < 10 ^ 12 := by exact_mod_cast below
    rw [same]
    refine ⟨by positivity, ⟨n, by push_cast; ring⟩, ?_⟩
    push_cast
    linarith

/-- A price that does not pass is an invalid input. -/
theorem checkPrice_code {o : Order} {e : Error} (h : o.checkPrice = .error e) : e.code = .invalidInput := by
  unfold checkPrice at h
  dsimp only at h
  split_ifs at h <;> cases h <;> rfl

end Order

end PickupPoint
