/-!
# Civil dates and day numbers

The proleptic Gregorian calendar. A civil date is a year, a month and a day of the month; a day
number counts days from 1970-01-01. Years are taken from March to February, so that a leap day is
the last day of its year. The main statements, `dayNumber_civil` and `civil_dayNumber`, say that
the two ways to name a day are inverse to each other.
-/

namespace FuturesChains.Calendar

/-- A year, a month from 1 to 12 and a day of the month from 1. -/
structure Civil where
  year : Int
  month : Nat
  day : Nat
  deriving DecidableEq, Repr

/-- A leap year: a multiple of 4, and of 400 if it is one of 100. -/
def isLeapYear (year : Int) : Bool :=
  year % 4 = 0 && (year % 100 ≠ 0 || year % 400 = 0)

/-- The number of days of a month. -/
def monthLength (year : Int) : Nat → Nat
  | 2 => if isLeapYear year then 29 else 28
  | 4 | 6 | 9 | 11 => 30
  | _ => 31

/-- The date names a day: its month and its day of the month exist. -/
def Civil.Valid (c : Civil) : Prop :=
  1 ≤ c.month ∧ c.month ≤ 12 ∧ 1 ≤ c.day ∧ c.day ≤ monthLength c.year c.month

/-- The check is four comparisons. -/
instance (c : Civil) : Decidable c.Valid :=
  inferInstanceAs (Decidable (_ ∧ _))

/-- Days from 0000-03-01 to the first of March of a year. -/
def marchStart (year : Int) : Int :=
  365 * year + year / 4 - year / 100 + year / 400

/-- Days from the first of March to the first day of a month; March is month 0. -/
def monthStart (month : Nat) : Nat := (153 * month + 2) / 5

/-- The year from March to February that holds a day counted from 0000-03-01. -/
def marchYear (day : Int) : Int :=
  let guess := day * 400 / 146097
  if day < marchStart guess then guess - 1
  else if marchStart (guess + 1) ≤ day then guess + 1
  else guess

/-- The month, March first, that holds a day of a March year. -/
def marchMonth (dayOfYear : Nat) : Nat := (5 * dayOfYear + 2) / 153

/-- Days from 0000-03-01 to 1970-01-01. -/
def epochOffset : Int := 719468

/-- The number of a civil date's day; 1970-01-01 has number 0. -/
def Civil.dayNumber (c : Civil) : Int :=
  let year := if c.month ≤ 2 then c.year - 1 else c.year
  let month := if c.month ≤ 2 then c.month + 9 else c.month - 3
  marchStart year + monthStart month + c.day - 1 - epochOffset

/-- The civil date of a day number. -/
def civil (number : Int) : Civil :=
  let day := number + epochOffset
  let year := marchYear day
  let dayOfYear := (day - marchStart year).toNat
  let month := marchMonth dayOfYear
  let inNextYear := 10 ≤ month
  { year := if inNextYear then year + 1 else year
    month := if inNextYear then month - 9 else month + 3
    day := dayOfYear - monthStart month + 1 }

/-- A day lies in the March year that is computed for it. -/
theorem marchYear_bracket (day : Int) :
    marchStart (marchYear day) ≤ day ∧ day < marchStart (marchYear day + 1) := by
  unfold marchYear
  simp only
  split
  · rename_i h
    unfold marchStart at *
    omega
  · split <;> unfold marchStart at * <;> omega

/-- A later year starts later. -/
theorem marchStart_lt {a b : Int} (h : a < b) : marchStart a < marchStart b := by
  unfold marchStart
  omega

theorem marchStart_le {a b : Int} (h : a ≤ b) : marchStart a ≤ marchStart b := by
  rcases Int.lt_or_eq_of_le h with h | rfl
  · exact Int.le_of_lt (marchStart_lt h)
  · exact Int.le_refl _

/-- Only one March year holds a day. -/
theorem marchYear_eq {day year : Int} (hlow : marchStart year ≤ day)
    (hhigh : day < marchStart (year + 1)) : marchYear day = year := by
  have hb := marchYear_bracket day
  rcases Int.lt_trichotomy (marchYear day) year with h | h | h
  · have := marchStart_le (show marchYear day + 1 ≤ year by omega)
    omega
  · exact h
  · have := marchStart_le (show year + 1 ≤ marchYear day by omega)
    omega

/-- The length of a March year, which ends with the February of the next calendar year. -/
theorem marchStart_succ (year : Int) :
    marchStart (year + 1) = marchStart year + if isLeapYear (year + 1) then 366 else 365 := by
  unfold marchStart
  split
  · rename_i h
    simp only [isLeapYear, Bool.and_eq_true, Bool.or_eq_true, decide_eq_true_eq, ne_eq] at h
    omega
  · rename_i h
    simp only [isLeapYear, Bool.and_eq_true, Bool.or_eq_true, decide_eq_true_eq, ne_eq,
      not_and, not_or] at h
    by_cases h4 : (year + 1) % 4 = 0
    · have := h h4
      omega
    · omega

/-- Within a March year the month computed for a day is the one that holds it. -/
theorem marchMonth_bracket {dayOfYear : Nat} (h : dayOfYear < 366) :
    monthStart (marchMonth dayOfYear) ≤ dayOfYear ∧
      dayOfYear < monthStart (marchMonth dayOfYear + 1) ∧ marchMonth dayOfYear ≤ 11 := by
  unfold monthStart marchMonth
  omega

/-- Only one month holds a day of the year. -/
theorem marchMonth_eq {month dayOfYear : Nat} (hlow : monthStart month ≤ dayOfYear)
    (hhigh : dayOfYear < monthStart (month + 1)) : marchMonth dayOfYear = month := by
  unfold monthStart marchMonth at *
  omega

/-- The day number of the civil date of a day number is that number. -/
theorem dayNumber_civil (number : Int) : (civil number).dayNumber = number := by
  have hy := marchYear_bracket (number + epochOffset)
  have hlen := marchStart_succ (marchYear (number + epochOffset))
  have hday :
      (number + epochOffset - marchStart (marchYear (number + epochOffset))).toNat < 366 := by
    split at hlen <;> omega
  have hm := marchMonth_bracket hday
  unfold civil Civil.dayNumber
  simp only
  generalize hk : marchMonth
    (number + epochOffset - marchStart (marchYear (number + epochOffset))).toNat = k at *
  by_cases hnext : 10 ≤ k
  · have h1 : k - 9 ≤ 2 := by omega
    have h2 : k - 9 + 9 = k := by omega
    simp only [hnext, if_true, h1, h2, Int.add_sub_cancel]
    omega
  · have h1 : ¬ k + 3 ≤ 2 := by omega
    have h2 : k + 3 - 3 = k := by omega
    simp only [hnext, if_false, h1, h2]
    omega

/-- The lengths of the months, March first, are the steps between their first days; the last one is
February. -/
theorem monthLength_march (year : Int) {month : Nat} (h : month < 10) :
    monthLength year (month + 3) = monthStart (month + 1) - monthStart month := by
  rcases month with _ | _ | _ | _ | _ | _ | _ | _ | _ | _ | n <;>
    first | rfl | omega

/-- Every computed civil date names a day. -/
theorem civil_valid (number : Int) : (civil number).Valid := by
  have hy := marchYear_bracket (number + epochOffset)
  have hlen := marchStart_succ (marchYear (number + epochOffset))
  have hday :
      (number + epochOffset - marchStart (marchYear (number + epochOffset))).toNat < 366 := by
    split at hlen <;> omega
  have hm := marchMonth_bracket hday
  unfold civil Civil.Valid
  simp only
  generalize hyear : marchYear (number + epochOffset) = year at *
  generalize hd : (number + epochOffset - marchStart year).toNat = day at *
  generalize hk : marchMonth day = k at *
  by_cases hnext : 10 ≤ k
  · simp only [hnext, if_true]
    rcases (show k = 10 ∨ k = 11 by omega) with rfl | rfl
    · have : monthLength (year + 1) (10 - 9) = 31 := rfl
      simp only [monthStart] at *
      omega
    · have : monthLength (year + 1) (11 - 9) = if isLeapYear (year + 1) then 29 else 28 := rfl
      simp only [monthStart] at *
      split at hlen <;> simp_all <;> omega
  · simp only [hnext, if_false]
    have := monthLength_march year (show k < 10 by omega)
    omega

/-- The civil date of the day number of a valid date is that date. -/
theorem civil_dayNumber {c : Civil} (h : c.Valid) : civil c.dayNumber = c := by
  obtain ⟨year, month, day⟩ := c
  obtain ⟨h1, h12, hd1, hdl⟩ := h
  simp only at *
  by_cases hfeb : month ≤ 2
  · have hlen := marchStart_succ (year - 1)
    rw [Int.sub_add_cancel] at hlen
    have hnum : (⟨year, month, day⟩ : Civil).dayNumber + epochOffset =
        marchStart (year - 1) + monthStart (month + 9) + day - 1 := by
      simp only [Civil.dayNumber, hfeb, if_true]
      omega
    have hspan : monthStart (month + 9) + day ≤ if isLeapYear year then 366 else 365 := by
      rcases (show month = 1 ∨ month = 2 by omega) with rfl | rfl
      · have : monthLength year 1 = 31 := rfl
        simp only [monthStart]
        split <;> omega
      · have : monthLength year 2 = if isLeapYear year then 29 else 28 := rfl
        simp only [monthStart]
        split at this <;> simp_all <;> omega
    have hyear : marchYear ((⟨year, month, day⟩ : Civil).dayNumber + epochOffset) = year - 1 := by
      apply marchYear_eq
      · omega
      · rw [Int.sub_add_cancel]
        split at hlen <;> simp_all <;> omega
    have hoff : ((⟨year, month, day⟩ : Civil).dayNumber + epochOffset
        - marchStart (year - 1)).toNat = monthStart (month + 9) + day - 1 := by
      omega
    have hmonth : marchMonth (monthStart (month + 9) + day - 1) = month + 9 := by
      apply marchMonth_eq
      · omega
      · rcases (show month = 1 ∨ month = 2 by omega) with rfl | rfl
        · have : monthLength year 1 = 31 := rfl
          simp only [monthStart]
          omega
        · have : monthLength year 2 ≤ 29 := by
            simp only [monthLength]
            split <;> omega
          simp only [monthStart]
          omega
    unfold civil
    simp only [hyear, hoff, hmonth, show 10 ≤ month + 9 by omega, if_true, Civil.mk.injEq]
    omega
  · have hnum : (⟨year, month, day⟩ : Civil).dayNumber + epochOffset =
        marchStart year + monthStart (month - 3) + day - 1 := by
      simp only [Civil.dayNumber, hfeb, if_false]
      omega
    have hstep := monthLength_march year (show month - 3 < 10 by omega)
    rw [show month - 3 + 3 = month by omega] at hstep
    have hnext : monthStart (month - 3 + 1) ≤ 306 ∧
        monthStart (month - 3) ≤ monthStart (month - 3 + 1) := by
      simp only [monthStart]
      omega
    have hlen := marchStart_succ year
    have hyear : marchYear ((⟨year, month, day⟩ : Civil).dayNumber + epochOffset) = year := by
      apply marchYear_eq
      · omega
      · split at hlen <;> omega
    have hoff : ((⟨year, month, day⟩ : Civil).dayNumber + epochOffset
        - marchStart year).toNat = monthStart (month - 3) + day - 1 := by
      omega
    have hmonth : marchMonth (monthStart (month - 3) + day - 1) = month - 3 := by
      apply marchMonth_eq <;> omega
    unfold civil
    simp only [hyear, hoff, hmonth, show ¬ 10 ≤ month - 3 by omega, if_false, Civil.mk.injEq]
    refine ⟨trivial, ?_, ?_⟩ <;> omega

end FuturesChains.Calendar
