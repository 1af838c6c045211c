/-
Instants as RFC 3339 text.

`toText` writes the date, a `T`, the time of day and a zone mark, with as many digits of the second (none, 3, 6 or 9) as
are needed. A year outside 0 to 9999 carries a sign, and a leap second is written as second 60.

`parse?` is lenient: blanks may stand before every number and mark and at both ends, numbers may be unpadded, the
date and the time may be parted by `t` or a blank, and the zone may be `UTC` or an offset from it.
-/
import PickupPoint.Time.Calendar
import PickupPoint.Time.Instant
import PickupPoint.Text.Integer
import PickupPoint.Text.Blank

namespace PickupPoint.Instant

open Text Time

/-! ## Writing -/

/-- a year, with a sign unless it has four digits and none -/
def yearText (year : Int) : String :=
  if 0 ≤ year ∧ year ≤ 9999 then padded 4 year.toNat
  else (if year < 0 then "-" else "+") ++ padded 4 year.natAbs

/-- the point and the digits of a second, at most as many groups of three as needed -/
def fractionText (nano : Nat) : String :=
  if nano = 0 then ""
  else if nano % 1000000 = 0 then "." ++ padded 3 (nano / 1000000)
  else if nano % 1000 = 0 then "." ++ padded 6 (nano / 1000)
  else "." ++ padded 9 nano

def dateText (d : Date) : String := yearText d.year ++ "-" ++ padded 2 d.month ++ "-" ++ padded 2 d.day

/-- the time of day, for a second of the day and its nanoseconds -/
def timeText (second nano : Nat) : String :=
  let leap := nano / nanosPerSecond
  padded 2 (second / 3600) ++ ":" ++ padded 2 (second / 60 % 60) ++ ":" ++ padded 2 (second % 60 + leap) ++
    fractionText (nano % nanosPerSecond)

def toText (zone : String) (t : Instant) : String :=
  dateText (.ofDays (t.second / 86400)) ++ "T" ++ timeText (t.second % 86400).toNat t.nano ++ zone

/-- as answers show it -/
def offsetText (t : Instant) : String := t.toText "+00:00"

/-- as stored documents show it -/
def zuluText (t : Instant) : String := t.toText "Z"

/-! ## Reading -/

/-- value of a run of digits -/
def digitsValue (ds : List Char) : Nat := ds.foldl (fun acc c => acc * 10 + (digit? c).getD 0) 0

def isDigit (c : Char) : Bool := (digit? c).isSome

/-- a number of one up to `width` digits -/
def number? (width : Nat) (cs : List Char) : Option (Nat × List Char) :=
  let ds := (cs.take width).takeWhile isDigit
  if ds.isEmpty then none else some (digitsValue ds, cs.drop ds.length)

/-- a number with blanks before it -/
def field? (width : Nat) (cs : List Char) : Option (Nat × List Char) := number? width (trimStart cs)

/-- a mark with blanks before it -/
def mark? (mark : Char) (cs : List Char) : Option (List Char) :=
  match trimStart cs with
  | c :: rest => if c = mark then some rest else none
  | [] => none

/-- A year of up to four digits, or with a sign of any number. -/
def year? (cs : List Char) : Option (Int × List Char) :=
  match trimStart cs with
  | '-' :: rest => (number? rest.length rest).map fun (n, rest) => (-(n : Int), rest)
  | '+' :: rest => (number? rest.length rest).map fun (n, rest) => ((n : Int), rest)
  | rest => (number? 4 rest).map fun (n, rest) => ((n : Int), rest)

def date? (cs : List Char) : Option (Date × List Char) := do
  let (year, cs) ← year? cs
  let (month, cs) ← field? 2 (← mark? '-' cs)
  let (day, cs) ← field? 2 (← mark? '-' cs)
  return (⟨year, month, day⟩, cs)

/-- the part of a second after its point, in nanoseconds, digits past the ninth dropped -/
def fraction? (cs : List Char) : Option (Nat × List Char) :=
  match cs with
  | '.' :: rest =>
    let ds := (rest.take 9).takeWhile isDigit
    if ds.isEmpty then none else some (digitsValue ds * Nat.pow 10 (9 - ds.length), rest.dropWhile isDigit)
  | _ => some (0, cs)

/-- Second of the day and nanoseconds. Second 60 is the leap second after second 59. -/
def time? (cs : List Char) : Option ((Nat × Nat) × List Char) := do
  let (hour, cs) ← field? 2 cs
  let (minute, cs) ← field? 2 (← mark? ':' cs)
  let (second, cs) ← field? 2 (← mark? ':' cs)
  let (nano, cs) ← fraction? cs
  if hour < 24 ∧ minute < 60 ∧ second ≤ 60 then
    let leap := second / 60
    return ((hour * 3600 + minute * 60 + (second - leap), leap * nanosPerSecond + nano), cs)
  else none

/-- seconds east of UTC, for hours and minutes after a sign -/
def offset? (cs : List Char) : Option (Nat × List Char) := do
  match cs with
  | h₁ :: h₂ :: cs =>
    let hours := (← digit? h₁) * 10 + (← digit? h₂)
    match cs.dropWhile (fun c => c = ':' ∨ isBlank c) with
    | m₁ :: m₂ :: cs =>
      let minutes := (← digit? m₁) * 10 + (← digit? m₂)
      if hours < 24 ∧ minutes < 60 then return (hours * 3600 + minutes * 60, cs) else none
    | _ => none
  | _ => none

/-- the minus sign of typography -/
def minusSign : Char := '\u2212'

/-- seconds east of UTC -/
def zone? (cs : List Char) : Option (Int × List Char) :=
  match cs with
  | [] => none
  | c :: rest =>
    if c = 'Z' ∨ c = 'z' then some (0, rest)
    else if String.ofList ((cs.take 3).map Char.toUpper) = "UTC" then some (0, cs.drop 3)
    else if c = '+' then (offset? rest).map fun (n, rest) => ((n : Int), rest)
    else if c = '-' ∨ c = minusSign then (offset? rest).map fun (n, rest) => (-(n : Int), rest)
    else none

/-- the first and the last year that a date may have -/
def firstYear : Int := -262143

def lastYear : Int := 262142

def isYear (year : Int) : Bool := firstYear ≤ year && year ≤ lastYear

/-- The instant of a text. Both the date as written and the date in UTC have to exist. -/
def parse? (text : String) : Option Instant := do
  let (date, cs) ← date? text.toList
  match cs with
  | [] => none
  | c :: cs =>
    if c = 'T' ∨ c = 't' ∨ c = ' ' then
      let ((second, nano), cs) ← time? cs
      let (east, cs) ← zone? (trimStart cs)
      if (trimStart cs).isEmpty ∧ date.isValid ∧ isYear date.year then
        let t : Instant := ⟨date.toDays * 86400 + second - east, nano⟩
        if isYear (Date.ofDays (t.second / 86400)).year then return t else none
      else none
    else none

end PickupPoint.Instant
