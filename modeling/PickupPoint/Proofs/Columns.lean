/-
What the columns of a table make of prices and times, and what the clock of the database has shown.

A price column rounds. A price that passed its check is kept in value (`kept_sameValue`), and what a column has kept it
keeps as it is (`storedPrice_storedPrice`). A time column counts microseconds, and keeps a time in whole microseconds
that is not in a leap second (`Instant.Exact.kept`). The clock of the database counts them as well, and each of its
readings adds one time to what it has shown (`shown_readClock`).
-/
import Mathlib.Order.Monotone.Defs
import Mathlib.Tactic.Common
import PickupPoint.Proofs.Amounts
import PickupPoint.Proofs.TimeText
import PickupPoint.Store.Tables

namespace PickupPoint

/-! ## Prices -/

namespace Decimal

theorem round_scale (d : Decimal) (scale : Int) : (d.round scale).scale = scale := by
  unfold round
  split_ifs <;> rfl

theorem nearest_exact {q u : Nat} (positive : 0 < u) : (2 * (q * u) + u) / (2 * u) = q := by
  rw [Nat.mul_comm q u, ← Nat.mul_assoc, Nat.mul_add_div (by omega), Nat.div_eq_of_lt (by omega), Nat.add_zero]

/-- A unit stops growing only where it is more than all the digits. -/
theorem unit_eq {n places : Nat} (h : 10 ^ places ≤ n) : unit n places = 10 ^ places := by
  have reached : places < n.log2 + 1 := by
    by_contra stopped
    exact absurd (lt_ten_pow (not_lt.1 stopped)) (not_lt.2 h)
  rw [unit, Nat.min_eq_left (by omega), Nat.pow_eq]

/-- What is a whole number of units already is not changed in value by rounding. -/
theorem round_whole {d : Decimal} {scale n : Int} (whole : d.value = n * place scale) : d.round scale = ⟨n, scale⟩ := by
  unfold round
  split_ifs with fits
  · rw [← digitsAt_value fits] at whole
    have digits : d.digitsAt scale = n := by exact_mod_cast mul_right_cancel₀ (place_pos scale).ne' whole
    rw [digits]
  have digits : d.digits = n * (10 ^ (d.scale - scale).toNat : Nat) := digits_of_whole (by omega) whole
  dsimp only
  rcases eq_or_ne n 0 with rfl | nonzero
  · simp [digits]
  have some : 0 < n.natAbs := Int.natAbs_pos.2 nonzero
  have abs : d.digits.natAbs = n.natAbs * 10 ^ (d.scale - scale).toNat := by
    rw [digits, Int.natAbs_mul, Int.natAbs_natCast]
  have sign : d.digits.sign = n.sign := by
    have unit : ((10 ^ (d.scale - scale).toNat : Nat) : Int).sign = 1 := Int.sign_eq_one_of_pos (by positivity)
    rw [digits, Int.sign_mul, unit, Int.mul_one]
  rw [abs, unit_eq (Nat.le_mul_of_pos_left _ some), nearest_exact (by positivity), sign, Int.sign_mul_natAbs]

theorem round_round (d : Decimal) (scale : Int) : (d.round scale).round scale = d.round scale := by
  have scaled := d.round_scale scale
  generalize d.round scale = kept at scaled ⊢
  obtain ⟨digits, _⟩ := kept
  cases scaled
  exact round_whole rfl

end Decimal

theorem storedPrice_storedPrice (price : Decimal) : storedPrice (storedPrice price) = storedPrice price :=
  Decimal.round_round price _

/-- A price that passed its check is kept as so many hundredths. -/
theorem storedPrice_checked {o : Order} {n : ℕ} (same : o.price.value = n / 100) : storedPrice o.price = ⟨n, 2⟩ := by
  refine Decimal.round_whole ?_
  rw [same]
  norm_num [Decimal.place, Order.priceScale]
  ring

theorem kept_value {o : Order} (h : o.checkPrice = .ok ()) : (storedPrice o.price).value = o.price.value := by
  obtain ⟨n, -, same⟩ := Order.checkPrice_ok_iff.1 h
  rw [storedPrice_checked same, same, Decimal.value]
  norm_num
  ring

/-- It is kept in value. -/
theorem kept_sameValue {o : Order} (h : o.checkPrice = .ok ()) : (storedPrice o.price).sameValue o.price = true :=
  Decimal.sameValue_iff.2 (kept_value h)

/-! ## Times -/

namespace Instant

theorem lt_iff {a b : Instant} : a < b ↔ a.second < b.second ∨ (a.second = b.second ∧ a.nano < b.nano) := Iff.rfl

theorem le_iff {a b : Instant} : a ≤ b ↔ ¬ (b.second < a.second ∨ (b.second = a.second ∧ b.nano < a.nano)) := Iff.rfl

instance : LinearOrder Instant where
  le_refl a := by rw [le_iff]; omega
  le_trans a b c := by rw [le_iff, le_iff, le_iff]; omega
  lt_iff_le_not_ge a b := by rw [le_iff, le_iff, lt_iff]; omega
  le_antisymm a b := by
    obtain ⟨_, _⟩ := a
    obtain ⟨_, _⟩ := b
    rw [le_iff, le_iff, Instant.mk.injEq]
    dsimp only
    omega
  le_total a b := by rw [le_iff, le_iff]; omega
  toDecidableLE _ _ := inferInstance

/-- in whole microseconds, and not in a leap second -/
def Exact (t : Instant) : Prop := 1000 ∣ t.nano ∧ t.nano < nanosPerSecond

instance (t : Instant) : Decidable t.Exact := inferInstanceAs (Decidable (_ ∧ _))

theorem ofMicroseconds_proper (micros : Int) : (ofMicroseconds micros).Proper := by
  refine .inl ?_
  unfold ofMicroseconds nanosPerSecond
  dsimp only
  omega

/-- An exact time is kept. -/
theorem Exact.kept {t : Instant} (h : t.Exact) : t.atMicrosecond = t := by
  obtain ⟨second, nano⟩ := t
  obtain ⟨⟨micros, whole⟩, within⟩ := h
  change nano = 1000 * micros at whole
  change nano < 1000000000 at within
  subst whole
  have counted : (second - millennium) * (nanosPerSecond : Nat) + (1000 * micros : Nat) =
      1000 * ((second - millennium) * 1000000 + micros) := by
    unfold nanosPerSecond
    omega
  unfold atMicrosecond toMicroseconds
  rw [counted, Int.mul_tdiv_cancel_left _ (by decide)]
  unfold ofMicroseconds
  rw [Instant.mk.injEq]
  omega

end Instant

/-! ## The clock of the database -/

namespace Tables

variable {t : Tables}

/-- what the clock has shown so far, the first reading first -/
def shown (t : Tables) : List Instant := (List.range t.clock.taken).map t.reading

theorem reading_proper (t : Tables) (n : Nat) : (t.reading n).Proper := Instant.ofMicroseconds_proper _

theorem shown_readClock (t : Tables) : t.readClock.2.shown = t.shown ++ [t.readClock.1] := by
  show (List.range (t.clock.taken + 1)).map t.reading = t.shown ++ [t.reading t.clock.taken]
  rw [List.range_succ, List.map_append]
  rfl

/-- A clock that never goes back has shown what it showed in this order. -/
theorem shown_ascending (forward : Monotone t.reading) : t.shown.Pairwise (· ≤ ·) :=
  List.pairwise_map.2 (List.pairwise_lt_range.imp fun before => forward before.le)

end Tables

end PickupPoint
