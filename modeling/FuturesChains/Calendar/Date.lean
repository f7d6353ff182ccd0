import FuturesChains.Calendar.Civil
import FuturesChains.Number.Decimal
import FuturesChains.Number.Integer
import FuturesChains.Text.Blank

/-!
# Dates

A date is a day of the proleptic Gregorian calendar from the first day of year -262143 to the last
day of year 262142. This module holds the type, its civil reading, stepping by days, and its text
in both directions. The main statements are `ofCivil?_civil`, by which every date is the reading of
its own year, month and day, and `day_add?`, by which a step adds to the day number.
-/

namespace FuturesChains

open Calendar

/-- The number of the first day, the first of January of year -262143. -/
def Date.firstDay : Int := -96465292

/-- The number of the last day, the last of December of year 262142. -/
def Date.lastDay : Int := 95026236

/-- A calendar day, by its distance in days from 1970-01-01. -/
structure Date where
  day : Int
  first_le : Date.firstDay ≤ day := by decide
  le_last : day ≤ Date.lastDay := by decide
  deriving DecidableEq

namespace Date

/-- The first day of the calendar. -/
def first : Date := ⟨firstDay, by decide, by decide⟩

/-- The last day of the calendar. -/
def last : Date := ⟨lastDay, by decide, by decide⟩

instance : Inhabited Date := ⟨⟨0, by decide, by decide⟩⟩

/-- Dates are ordered by their day numbers. -/
instance : LE Date := ⟨fun a b => a.day ≤ b.day⟩

instance : LT Date := ⟨fun a b => a.day < b.day⟩

instance (a b : Date) : Decidable (a ≤ b) := inferInstanceAs (Decidable (a.day ≤ b.day))

instance (a b : Date) : Decidable (a < b) := inferInstanceAs (Decidable (a.day < b.day))

/-- The date with a day number, if the calendar has one. -/
def ofDay? (day : Int) : Option Date :=
  if h : firstDay ≤ day ∧ day ≤ lastDay then some ⟨day, h.1, h.2⟩ else none

/-- The date of a year, a month and a day of the month, if there is such a day. -/
def ofCivil? (c : Civil) : Option Date :=
  if c.Valid then ofDay? c.dayNumber else none

/-- The year, month and day of the month of a date. -/
def civil (d : Date) : Civil := Calendar.civil d.day

/-- The year of a date. -/
def year (d : Date) : Int := d.civil.year

/-- The month of a date, January as 1. -/
def month (d : Date) : Nat := d.civil.month

/-- The day of the week, Sunday as 0; 1970-01-01 was a Thursday. -/
def weekday (d : Date) : Fin 7 :=
  ⟨((d.day + 4) % 7).toNat, by omega⟩

/-- The date some days later, or earlier for a negative number, if the calendar reaches it. -/
def add? (d : Date) (days : Int) : Option Date := ofDay? (d.day + days)

/-- A year as text: at least four digits, with a sign in front outside 0 to 9999. -/
def yearText (year : Int) : String :=
  if 0 ≤ year ∧ year ≤ 9999 then String.ofList (Decimal.padDigits 4 year.toNat)
  else if year < 0 then "-" ++ String.ofList (Decimal.padDigits 4 year.natAbs)
  else "+" ++ String.ofList (Decimal.padDigits 4 year.toNat)

/-- Two decimal digits. -/
def twoDigits (n : Nat) : String := String.ofList (Decimal.padDigits 2 n)

/-- The text of a date: year, month and day of the month with hyphens between them. -/
def toText (d : Date) : String :=
  let c := d.civil
  yearText c.year ++ "-" ++ twoDigits c.month ++ "-" ++ twoDigits c.day

/-- The number that some digits write. -/
def digitsValue (digits : List Char) : Nat :=
  digits.foldl (fun n c => n * 10 + (c.toNat - 48)) 0

/-- Read between one and `most` digits. -/
def readDigits (most : Nat) (cs : List Char) : Option (Nat × List Char) :=
  let digits := (cs.takeWhile Char.isDigit).take most
  if digits.isEmpty then none else some (digitsValue digits, cs.drop digits.length)

/-- Read a year: with a sign any number of digits, without one at most four. -/
def readYear : List Char → Option (Int × List Char)
  | '-' :: rest => (readDigits rest.length rest).map fun (n, rest) => (-(n : Int), rest)
  | '+' :: rest => (readDigits rest.length rest).map fun (n, rest) => ((n : Int), rest)
  | cs => (readDigits 4 cs).map fun (n, rest) => ((n : Int), rest)

/-- Skip white space and a hyphen. -/
def skipHyphen (cs : List Char) : Option (List Char) :=
  match Text.dropBlanks cs with
  | '-' :: rest => some rest
  | _ => none

/-- Read a date: year, month and day with hyphens between them, and white space allowed around
each. -/
def ofText? (text : String) : Option Date := do
  let (year, rest) ← readYear (Text.dropBlanks text.toList)
  let rest ← skipHyphen rest
  let (month, rest) ← readDigits 2 (Text.dropBlanks rest)
  let rest ← skipHyphen rest
  let (day, rest) ← readDigits 2 (Text.dropBlanks rest)
  if (Text.dropBlanks rest).isEmpty then ofCivil? ⟨year, month, day⟩ else none

theorem ofDay?_day (d : Date) : ofDay? d.day = some d := by
  simp [ofDay?, d.first_le, d.le_last]

theorem ofDay?_eq_some_iff {day : Int} {d : Date} : ofDay? day = some d ↔ d.day = day := by
  constructor
  · intro h
    unfold ofDay? at h
    split at h
    · obtain rfl := Option.some.inj h
      rfl
    · cases h
  · rintro rfl
    exact ofDay?_day d

/-- A step adds to the day number. -/
theorem day_add? {d e : Date} {days : Int} (h : d.add? days = some e) : e.day = d.day + days :=
  ofDay?_eq_some_iff.1 h

/-- Every date is the reading of its own year, month and day. -/
theorem ofCivil?_civil (d : Date) : ofCivil? d.civil = some d := by
  unfold ofCivil? civil
  rw [if_pos (civil_valid d.day), dayNumber_civil, ofDay?_day]

/-- A date that is read from a civil date has that civil date. -/
theorem civil_of_ofCivil? {c : Civil} {d : Date} (h : ofCivil? c = some d) : d.civil = c := by
  unfold ofCivil? at h
  split at h
  · rename_i hvalid
    unfold civil
    rw [ofDay?_eq_some_iff.1 h, civil_dayNumber hvalid]
  · cases h

/-- Dates with the same day number are the same. -/
theorem eq_of_day_eq {a b : Date} (h : a.day = b.day) : a = b := by
  cases a
  cases b
  simpa using h

end Date

end FuturesChains
