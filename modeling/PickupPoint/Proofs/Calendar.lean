/-
Every day has a date that exists, and the date has its day.

A day of an era lies in a century, in a group of four years of it, in a year of the group and on a day of that year,
all counted from 0. Only the last year of a group may have a 366th day, and the last group of a century has none unless
the century is the last of its era. These parts determine year and day (`Parts.year`, `Parts.day`).
-/
import Mathlib.Tactic.Common
import PickupPoint.Time.Calendar

namespace PickupPoint.Time

/-- what a day of an era is made of -/
structure Parts where
  century : Nat
  group : Nat
  year : Nat
  day : Nat
  century_le : century ≤ 3
  group_le : group ≤ 24
  year_le : year ≤ 3
  day_le : day ≤ 365
  leap : day = 365 → year = 3 ∧ (group = 24 → century = 3)

namespace Parts

/-- the day of the era -/
def dayOfEra (p : Parts) : Nat := 36524 * p.century + 1461 * p.group + 365 * p.year + p.day

def yearOfEra (p : Parts) : Nat := 100 * p.century + 4 * p.group + p.year

theorem exists_of_lt {n : Nat} (h : n < daysPerEra) : ∃ p : Parts, p.dayOfEra = n := by
  unfold daysPerEra at h
  -- the last part of each kind takes what is left, so it may be longer by a day
  have split : ∀ size n : Nat, n ≤ 4 * size →
      ∃ part, part ≤ 3 ∧ size * part ≤ n ∧ n ≤ size * part + size ∧ (n = size * part + size → part = 3) := by
    intro size n hn
    by_cases h₁ : n < size
    · exact ⟨0, by omega⟩
    by_cases h₂ : n < size * 2
    · exact ⟨1, by omega⟩
    by_cases h₃ : n < size * 3
    · exact ⟨2, by omega⟩
    · exact ⟨3, by omega⟩
  obtain ⟨c, hc, c_from, c_to, c_last⟩ := split 36524 n (by omega)
  obtain ⟨y, hy, y_from, y_to, y_last⟩ := split 365 ((n - 36524 * c) % 1461) (by omega)
  exact ⟨⟨c, (n - 36524 * c) / 1461, y, (n - 36524 * c) % 1461 - 365 * y, hc, by omega, hy, by omega, by omega⟩,
    by simp only [dayOfEra]; omega⟩

variable (p : Parts)

/-- the year that a day of the era belongs to -/
theorem yearOfEra_eq : (p.dayOfEra - p.dayOfEra / 1460 + p.dayOfEra / 36524 - p.dayOfEra / 146096) / 365 =
    p.yearOfEra := by
  obtain ⟨c, q, y, d, hc, hq, hy, hd, leap⟩ := p
  simp only [dayOfEra, yearOfEra]
  generalize hn : 36524 * c + 1461 * q + 365 * y + d = n
  have groups : n / 1460 = if 1460 ≤ 24 * c + q + 365 * y + d then 25 * c + q + 1 else 25 * c + q := by
    split_ifs <;> omega
  have centuries : n / 36524 = c + n / 146096 := by
    have last : n < 36524 * c + 36524 ∨ (n = 146096 ∧ c = 3) := by omega
    rcases last with inside | ⟨rfl, rfl⟩
    · have : n / 146096 = 0 := by omega
      omega
    · rfl
  rw [groups, centuries]
  split_ifs <;> omega

/-- the days of the era before its year -/
theorem days_before : p.yearOfEra * 365 + p.yearOfEra / 4 - p.yearOfEra / 100 + p.day = p.dayOfEra := by
  obtain ⟨c, q, y, d, hc, hq, hy, hd, leap⟩ := p
  simp only [dayOfEra, yearOfEra]
  have groups : (100 * c + 4 * q + y) / 4 = 25 * c + q := by omega
  have centuries : (100 * c + 4 * q + y) / 100 = c := by omega
  omega

theorem yearOfEra_lt : p.yearOfEra < 400 := by
  obtain ⟨c, q, y, d, hc, hq, hy, hd, leap⟩ := p
  simp only [yearOfEra]
  omega

/-- months from March on before the day -/
def month : Nat := (5 * p.day + 2) / 153

theorem month_le : p.month ≤ 11 := by
  have := p.day_le
  unfold month
  omega

end Parts

/-- the date of a day, by the parts of it -/
theorem ofDays_eq (days : Int) : ∃ (era : Int) (p : Parts),
    days + daysToEpoch = era * daysPerEra + p.dayOfEra ∧
      Date.ofDays days = ⟨era * 400 + p.yearOfEra + if p.month < 10 then 0 else 1,
        if p.month < 10 then p.month + 3 else p.month - 9, p.day - (153 * p.month + 2) / 5 + 1⟩ := by
  have positive : (0 : Int) < daysPerEra := by decide
  have lt := Int.emod_lt_of_pos (days + daysToEpoch) positive
  have nonneg := Int.emod_nonneg (days + daysToEpoch) (Int.ne_of_gt positive)
  obtain ⟨p, hp⟩ := Parts.exists_of_lt (n := ((days + daysToEpoch) % daysPerEra).toNat) (by omega)
  refine ⟨(days + daysToEpoch) / daysPerEra, p, ?_, ?_⟩
  · have := Int.emod_add_mul_ediv (days + daysToEpoch) daysPerEra
    rw [Int.mul_comm] at this
    omega
  · have day : p.dayOfEra - (365 * p.yearOfEra + p.yearOfEra / 4 - p.yearOfEra / 100) = p.day := by
      have := p.days_before
      omega
    unfold Date.ofDays
    dsimp only
    rw [← hp, p.yearOfEra_eq, day, ← Parts.month]
    have := p.month_le
    congr 1
    split_ifs <;> omega

theorem isLeapYear_of_day {p : Parts} (h : p.day = 365) (era : Int) :
    isLeapYear (era * 400 + p.yearOfEra + 1) = true := by
  obtain ⟨c, q, y, d, hc, hq, hy, hd, leap⟩ := p
  obtain ⟨rfl, last⟩ := leap h
  simp only [isLeapYear, Parts.yearOfEra, Bool.and_eq_true, Bool.or_eq_true, beq_iff_eq, bne_iff_ne]
  omega

theorem isValid_ofDays (days : Int) : (Date.ofDays days).isValid = true := by
  obtain ⟨era, p, -, hd⟩ := ofDays_eq days
  have month_le := p.month_le
  have day_le := p.day_le
  have month : p.month = (5 * p.day + 2) / 153 := rfl
  rw [hd]
  simp only [Date.isValid, Bool.and_eq_true, decide_eq_true_eq]
  refine ⟨⟨⟨?_, ?_⟩, ?_⟩, ?_⟩
  · split_ifs <;> omega
  · split_ifs <;> omega
  · omega
  · by_cases february : p.month = 11
    · rw [february]
      by_cases last : p.day = 365
      · simp [daysInMonth, isLeapYear_of_day last, last]
      · show _ ≤ if isLeapYear _ = true then 29 else 28
        split_ifs <;> omega
    · unfold daysInMonth
      split_ifs <;> omega

theorem toDays_ofDays (days : Int) : (Date.ofDays days).toDays = days := by
  obtain ⟨era, p, hdays, hd⟩ := ofDays_eq days
  have month_le := p.month_le
  have year_lt := p.yearOfEra_lt
  have before := p.days_before
  rw [hd]
  unfold Date.toDays
  dsimp only
  have year : (if (if p.month < 10 then p.month + 3 else p.month - 9) ≤ 2 then
      era * 400 + p.yearOfEra + (if p.month < 10 then 0 else 1) - 1
      else era * 400 + p.yearOfEra + if p.month < 10 then 0 else 1) = era * 400 + p.yearOfEra := by
    split_ifs <;> omega
  have month : ((if p.month < 10 then p.month + 3 else p.month - 9) + 9) % 12 = p.month := by
    split_ifs <;> omega
  have day : (153 * p.month + 2) / 5 + (p.day - (153 * p.month + 2) / 5 + 1) - 1 = p.day := by
    unfold Parts.month
    omega
  rw [year, month, day]
  have yearOfEra : ((era * 400 + p.yearOfEra) % 400).toNat = p.yearOfEra := by omega
  have eras : (era * 400 + p.yearOfEra) / 400 = era := by omega
  rw [yearOfEra, eras]
  omega

end PickupPoint.Time
