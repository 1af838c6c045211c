/-
An instant is read from its own text.

The reader is lenient, but of what the writer writes there is one reading: every number has its full width, or ends at
a mark. `parse?_zuluText` says that the reading is the instant, leap seconds and all, unless its year is one that no
date may have.
-/
import Mathlib.Data.List.TakeWhile
import PickupPoint.Proofs.Calendar
import PickupPoint.Proofs.Digits

namespace PickupPoint.Instant

open Text Time

/-- an instant that a clock can show: a leap second is counted in the last second of its minute -/
def Proper (t : Instant) : Prop :=
  t.nano < nanosPerSecond ∨ (t.nano < 2 * nanosPerSecond ∧ t.second % 60 = 59)

/-- The digits of a number end before what follows. -/
def Ends (rest : List Char) : Prop := ∀ c, rest.head? = some c → isDigit c = false

variable {width n : Nat} {ds rest : List Char}

theorem takeWhile_ends (h : Ends rest) (k : Nat) : (rest.take k).takeWhile isDigit = [] := by
  rcases rest with _ | ⟨c, rest⟩
  · simp
  · cases k with
    | zero => rfl
    | succ k => simp [h c rfl]

theorem dropWhile_ends (h : Ends rest) : rest.dropWhile isDigit = rest := by
  rcases rest with _ | ⟨c, rest⟩
  · rfl
  · simp [h c rfl]

/-- A run of digits within a width is taken whole, if it fills the width or ends there. -/
theorem digits_taken (hd : ∀ c ∈ ds, isDigit c = true) (hw : ds.length ≤ width) (he : ds.length = width ∨ Ends rest) :
    ((ds ++ rest).take width).takeWhile isDigit = ds := by
  have more : (rest.take (width - ds.length)).takeWhile isDigit = [] := by
    rcases he with he | he
    · rw [he, Nat.sub_self]; rfl
    · exact takeWhile_ends he _
  rw [List.take_append, List.take_of_length_le hw, List.takeWhile_append_of_pos hd, more, List.append_nil]

theorem number?_digits (hd : ∀ c ∈ ds, isDigit c = true) (hne : ds ≠ []) (hw : ds.length ≤ width)
    (he : ds.length = width ∨ Ends rest) : number? width (ds ++ rest) = some (digitsValue ds, rest) := by
  unfold number?
  rw [digits_taken hd hw he]
  simp [hne]

theorem trimStart_digit {c : Char} (h : isDigit c = true) (cs : List Char) : trimStart (c :: cs) = c :: cs := by
  have bounds : '0' ≤ c ∧ c ≤ '9' := by simpa [isDigit, digit?] using h
  have low : 48 ≤ c.toNat := bounds.1
  have high : c.toNat ≤ 57 := bounds.2
  have visible : isBlank c = false := by
    simp [isBlank]
    omega
  simp [trimStart, visible]

theorem isDigit_padded {c : Char} (h : c ∈ (padded width n).toList) : isDigit c = true := digit?_of_mem_padded h

theorem padded_cons (width n : Nat) : ∃ c cs, (padded width n).toList = c :: cs ∧ isDigit c = true := by
  rcases hp : (padded width n).toList with _ | ⟨c, cs⟩
  · exact absurd hp (padded_ne_nil width n)
  · exact ⟨c, cs, rfl, isDigit_padded (hp ▸ List.mem_cons_self)⟩

theorem trimStart_padded (width n : Nat) (rest : List Char) :
    trimStart ((padded width n).toList ++ rest) = (padded width n).toList ++ rest := by
  obtain ⟨c, cs, hp, hc⟩ := padded_cons width n
  rw [hp, List.cons_append, trimStart_digit hc]

/-- a number of full width -/
theorem number?_padded (hw : 0 < width) (h : n < 10 ^ width) :
    number? width ((padded width n).toList ++ rest) = some (n, rest) := by
  have length := length_padded hw h
  rw [number?_digits (fun _ => isDigit_padded) (padded_ne_nil width n) length.le (.inl length), digitsValue_padded]

/-- a number of two digits, as most of them are -/
theorem field?_padded (h : n < 100) : field? 2 ((padded 2 n).toList ++ rest) = some (n, rest) := by
  rw [field?, trimStart_padded, number?_padded (by omega) h]

/-! ## Dates -/

theorem year?_digit {c : Char} (h : isDigit c = true) (cs : List Char) :
    year? (c :: cs) = (number? 4 (c :: cs)).map fun p => ((p.1 : Int), p.2) := by
  have minus : c ≠ '-' := by rintro rfl; exact absurd h (by decide)
  have plus : c ≠ '+' := by rintro rfl; exact absurd h (by decide)
  rw [year?, trimStart_digit h]
  simp only [List.cons.injEq, minus, plus, false_and, imp_self, implies_true]

/-- a number of any width, up to the mark that ends it -/
theorem number?_ended (h : Ends rest) :
    number? ((padded width n).toList ++ rest).length ((padded width n).toList ++ rest) = some (n, rest) := by
  have short : (padded width n).toList.length ≤ ((padded width n).toList ++ rest).length := by simp
  rw [number?_digits (fun _ => isDigit_padded) (padded_ne_nil width n) short (.inr h), digitsValue_padded]

theorem year?_minus (cs : List Char) :
    year? ('-' :: cs) = (number? cs.length cs).map fun p => (-(p.1 : Int), p.2) := rfl

theorem year?_plus (cs : List Char) :
    year? ('+' :: cs) = (number? cs.length cs).map fun p => ((p.1 : Int), p.2) := rfl

theorem year?_yearText (year : Int) (h : Ends rest) : year? ((yearText year).toList ++ rest) = some (year, rest) := by
  unfold yearText
  split_ifs with short negative
  · have back : (year.toNat : Int) = year := by omega
    obtain ⟨c, cs, hp, hc⟩ := padded_cons 4 year.toNat
    have number : number? 4 ((padded 4 year.toNat).toList ++ rest) = some (year.toNat, rest) :=
      number?_padded (by omega) (by omega)
    rw [hp, List.cons_append] at number ⊢
    rw [year?_digit hc, number, Option.map_some, back]
  · have back : -(year.natAbs : Int) = year := by omega
    have written : ("-" ++ padded 4 year.natAbs).toList ++ rest = '-' :: ((padded 4 year.natAbs).toList ++ rest) := by
      simp
    rw [written, year?_minus, number?_ended h, Option.map_some, back]
  · have back : (year.natAbs : Int) = year := by omega
    have written : ("+" ++ padded 4 year.natAbs).toList ++ rest = '+' :: ((padded 4 year.natAbs).toList ++ rest) := by
      simp
    rw [written, year?_plus, number?_ended h, Option.map_some, back]

theorem date?_dateText {d : Date} (hm : d.month < 100) (hd : d.day < 100) (rest : List Char) :
    date? ((dateText d).toList ++ rest) = some (d, rest) := by
  have mark : ∀ cs, mark? '-' ('-' :: cs) = some cs := fun _ => rfl
  have ends : ∀ cs, Ends ('-' :: cs) := by rintro cs c hc; cases hc; rfl
  have written : (dateText d).toList ++ rest = (yearText d.year).toList ++
      '-' :: ((padded 2 d.month).toList ++ '-' :: ((padded 2 d.day).toList ++ rest)) := by
    simp [dateText]
  rw [written, date?, year?_yearText _ (ends _)]
  simp only [Option.bind_eq_bind, Option.bind_some, mark, field?_padded hm, field?_padded hd]
  rfl

/-! ## Times -/

theorem fraction?_digits (hd : ∀ c ∈ ds, isDigit c = true) (hne : ds ≠ []) (hw : ds.length ≤ 9) (he : Ends rest) :
    fraction? ('.' :: (ds ++ rest)) = some (digitsValue ds * Nat.pow 10 (9 - ds.length), rest) := by
  have taken := digits_taken hd hw (.inr he)
  have dropped : (ds ++ rest).dropWhile isDigit = rest := by
    rw [List.dropWhile_append_of_pos hd, dropWhile_ends he]
  simp [fraction?, taken, dropped, hne]

/-- what comes after a time of day ends its last number, and is no point -/
def Closes (rest : List Char) : Prop := Ends rest ∧ rest.head? ≠ some '.'

theorem fraction?_fractionText {nano : Nat} (h : nano < nanosPerSecond) (he : Closes rest) :
    fraction? ((fractionText nano).toList ++ rest) = some (nano, rest) := by
  unfold nanosPerSecond at h
  -- so many digits, and the zeros that are left out after them
  have group : ∀ width n, 0 < width → width ≤ 9 → n < 10 ^ width → n * Nat.pow 10 (9 - width) = nano →
      fraction? (("." ++ padded width n).toList ++ rest) = some (nano, rest) := by
    intro width n hw hw9 hn hnano
    have length := length_padded hw hn
    have written : ("." ++ padded width n).toList ++ rest = '.' :: ((padded width n).toList ++ rest) := by simp
    rw [written, fraction?_digits (fun _ => isDigit_padded) (padded_ne_nil width n) (by omega) he.1,
      digitsValue_padded, length, hnano]
  unfold fractionText
  split_ifs with h0 h3 h6
  · have none_left : fraction? rest = some (0, rest) := by
      rcases rest with _ | ⟨c, cs⟩
      · rfl
      · have : c ≠ '.' := fun hc => he.2 (congrArg some hc)
        simp [fraction?, this]
    rw [h0]
    exact none_left
  · exact group 3 (nano / 1000000) (by omega) (by omega) (by omega) (by simp; omega)
  · exact group 6 (nano / 1000) (by omega) (by omega) (by omega) (by simp; omega)
  · exact group 9 nano (by omega) (by omega) (by omega) (by simp)

/-- The time of day is read again, whichever way a leap second is written. -/
theorem time?_timeText {t : Instant} (h : t.Proper) (he : Closes rest) :
    time? ((timeText (t.second % 86400).toNat t.nano).toList ++ rest) =
      some (((t.second % 86400).toNat, t.nano), rest) := by
  have mark : ∀ cs, mark? ':' (':' :: cs) = some cs := fun _ => rfl
  have lt : (t.second % 86400).toNat < 86400 := by omega
  have leap : (t.nano / nanosPerSecond = 0 ∧ t.nano < nanosPerSecond) ∨
      (t.nano / nanosPerSecond = 1 ∧ (t.second % 86400).toNat % 60 = 59) := by
    unfold Proper nanosPerSecond at *
    omega
  have fraction : t.nano % nanosPerSecond < nanosPerSecond := Nat.mod_lt _ (by decide)
  generalize (t.second % 86400).toNat = second at *
  have written : (timeText second t.nano).toList ++ rest = (padded 2 (second / 3600)).toList ++
      ':' :: ((padded 2 (second / 60 % 60)).toList ++ ':' :: ((padded 2 (second % 60 + t.nano / nanosPerSecond)).toList ++
        ((fractionText (t.nano % nanosPerSecond)).toList ++ rest))) := by
    simp [timeText]
  have hour : second / 3600 < 24 := by omega
  have minute : second / 60 % 60 < 60 := by omega
  have seconds : second % 60 + t.nano / nanosPerSecond ≤ 60 := by omega
  rw [written, time?]
  simp only [Option.bind_eq_bind, Option.bind_some, mark, field?_padded (Nat.lt_trans hour (by omega : 24 < 100)),
    field?_padded (Nat.lt_trans minute (by omega : 60 < 100)),
    field?_padded (Nat.lt_of_le_of_lt seconds (by omega : 60 < 100)), fraction?_fractionText fraction he]
  rw [if_pos ⟨hour, minute, seconds⟩]
  have time : second / 3600 * 3600 + second / 60 % 60 * 60 + (second % 60 + t.nano / nanosPerSecond -
      (second % 60 + t.nano / nanosPerSecond) / 60) = second := by omega
  have sixtieth : (second % 60 + t.nano / nanosPerSecond) / 60 = t.nano / nanosPerSecond := by omega
  have nanos : (second % 60 + t.nano / nanosPerSecond) / 60 * nanosPerSecond + t.nano % nanosPerSecond = t.nano := by
    rw [sixtieth, Nat.div_add_mod']
  simp only [time, nanos]
  rfl

/-- **Instants are read from their own text**, unless their year is none that a date may have. -/
theorem parse?_zuluText {t : Instant} (h : t.Proper) :
    parse? t.zuluText = if isYear (Date.ofDays (t.second / 86400)).year then some t else none := by
  have valid := isValid_ofDays (t.second / 86400)
  have month : (Date.ofDays (t.second / 86400)).month < 100 := by
    simp only [Date.isValid, Bool.and_eq_true, decide_eq_true_eq] at valid
    omega
  have day : (Date.ofDays (t.second / 86400)).day < 100 := by
    simp only [Date.isValid, Bool.and_eq_true, decide_eq_true_eq] at valid
    have : daysInMonth (Date.ofDays (t.second / 86400)).year (Date.ofDays (t.second / 86400)).month ≤ 31 := by
      unfold daysInMonth
      split_ifs <;> omega
    omega
  have closes : Closes ['Z'] := ⟨by intro c hc; cases hc; rfl, by decide⟩
  have written : t.zuluText.toList = (dateText (.ofDays (t.second / 86400))).toList ++
      'T' :: ((timeText (t.second % 86400).toNat t.nano).toList ++ ['Z']) := by
    simp [zuluText, toText]
  have second : t.second / 86400 * 86400 + (t.second % 86400).toNat - 0 = t.second := by omega
  have zone : zone? (trimStart ['Z']) = some (0, []) := rfl
  rw [parse?, written, date?_dateText month day]
  simp only [Option.bind_eq_bind, Option.bind_some, true_or, if_true, time?_timeText h closes, zone, toDays_ofDays,
    second, valid]
  by_cases year : isYear (Date.ofDays (t.second / 86400)).year = true
  · rw [if_pos ⟨rfl, trivial, year⟩, if_pos year, if_pos year]; rfl
  · rw [if_neg (fun h => year h.2.2), if_neg year]

end PickupPoint.Instant
