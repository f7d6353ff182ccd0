import Mathlib.Logic.Function.Iterate
import Mathlib.Order.Monotone.Basic
import FuturesChains.Proofs.Calendar.MonthStart

/-!
# Months by number

Months are counted from January of the year 0, and `YearMonth.later` is the month some months after
another by that count. Going from month to month, with January after December, is counting by one
(`YearMonth.iterate_next`). The first day of a month with a greater number is later
(`YearMonth.firstDayNumber_lt`), and the calendar has the first days of the months from its first
one to its last one (`YearMonth.exists_firstDay?_iff`).
-/

namespace FuturesChains

open Calendar

theorem Calendar.one_le_monthLength (year : Int) (month : Nat) : 1 ≤ monthLength year month := by
  unfold monthLength
  repeat' split
  all_goals omega

namespace YearMonth

/-- Months from January of the year 0 on. -/
def number (m : YearMonth) : Int := m.year * 12 + m.month - 1

/-- The month some months after another. -/
def later (m : YearMonth) (months : Nat) : YearMonth :=
  ⟨(m.number + months) / 12, ((m.number + months) % 12).toNat + 1⟩

/-- The number of a month's first day. -/
def firstDayNumber (m : YearMonth) : Int := (⟨m.year, m.month, 1⟩ : Civil).dayNumber

/-- The month is one of the twelve of a year. -/
structure OfYear (m : YearMonth) : Prop where
  first_le : 1 ≤ m.month
  le_last : m.month ≤ 12

variable {m other : YearMonth}

theorem ofYear_ofDate (d : Date) : (ofDate d).OfYear := ⟨d.civil_month.1, d.civil_month.2⟩

/-- The calendar begins with January of the year -262143. -/
theorem number_ofDate_first : (ofDate .first).number = -262143 * 12 := by decide

/-- The calendar ends with December of the year 262142. -/
theorem number_ofDate_last : (ofDate .last).number = 262142 * 12 + 11 := by decide

theorem ofYear_later (m : YearMonth) (months : Nat) : (m.later months).OfYear := by
  constructor <;> simp only [later] <;> omega

theorem OfYear.next (h : m.OfYear) : m.next.OfYear :=
  have hnext := next_month ⟨h.first_le, h.le_last⟩
  ⟨hnext.1, hnext.2⟩

theorem number_later (m : YearMonth) (months : Nat) :
    (m.later months).number = m.number + months := by
  simp only [later, number]
  omega

theorem number_next (m : YearMonth) : m.next.number = m.number + 1 := by
  unfold next
  split
  · rename_i hlast
    simp only [number, hlast]
    omega
  · simp only [number]
    omega

/-- A month is known by its number. -/
theorem OfYear.ext (h : m.OfYear) (hother : other.OfYear) (hnumber : m.number = other.number) :
    m = other := by
  obtain ⟨year, month⟩ := m
  obtain ⟨otherYear, otherMonth⟩ := other
  obtain ⟨hfirst, hlast⟩ := h
  obtain ⟨hfirst', hlast'⟩ := hother
  simp only [number, YearMonth.mk.injEq] at *
  omega

theorem later_zero (h : m.OfYear) : m.later 0 = m :=
  (ofYear_later m 0).ext h (by simp [number_later])

theorem next_later (m : YearMonth) (months : Nat) :
    (m.later months).next = m.later (months + 1) := by
  refine (ofYear_later m months).next.ext (ofYear_later m (months + 1)) ?_
  rw [number_next, number_later, number_later]
  omega

theorem later_next (m : YearMonth) (months : Nat) : m.next.later months = m.later (months + 1) := by
  refine (ofYear_later m.next months).ext (ofYear_later m (months + 1)) ?_
  rw [number_later, number_later, number_next]
  omega

/-- Going on month by month is counting months, by induction on the steps. -/
theorem iterate_next (h : m.OfYear) (months : Nat) :
    YearMonth.next^[months] m = m.later months := by
  induction months with
  | zero => exact (later_zero h).symm
  | succ months ih => rw [Function.iterate_succ_apply', ih, next_later]

/-- A month with a greater number begins later. -/
theorem firstDayNumber_lt (h : m.OfYear) (hother : other.OfYear)
    (hnumber : m.number < other.number) : m.firstDayNumber < other.firstDayNumber := by
  have hmono : StrictMono fun months => (m.later months).firstDayNumber := by
    refine strictMono_nat_of_lt_succ fun months => ?_
    have hmonth := ofYear_later m months
    have hnext := dayNumber_next ⟨hmonth.first_le, hmonth.le_last⟩
    have hlength := one_le_monthLength (m.later months).year (m.later months).month
    rw [next_later] at hnext
    simp only [firstDayNumber]
    omega
  obtain ⟨months, hmonths⟩ : ∃ months : Nat, other.number = m.number + months :=
    ⟨(other.number - m.number).toNat, by omega⟩
  obtain rfl : m.later months = other :=
    (ofYear_later m months).ext hother (by rw [number_later, hmonths])
  have hlt := hmono (show 0 < months by omega)
  simp only [later_zero h] at hlt
  exact hlt

theorem firstDayNumber_le (h : m.OfYear) (hother : other.OfYear)
    (hnumber : m.number ≤ other.number) : m.firstDayNumber ≤ other.firstDayNumber := by
  rcases Int.lt_or_eq_of_le hnumber with hlt | heq
  · exact Int.le_of_lt (firstDayNumber_lt h hother hlt)
  · rw [h.ext hother heq]

/-- A date is not before the first day of its month. -/
theorem firstDayNumber_ofDate_le (d : Date) : (ofDate d).firstDayNumber ≤ d.day := by
  have hday := d.day_eq_first_add
  have hfirst : 1 ≤ d.civil.day := (civil_valid d.day).2.2.1
  simp only [firstDayNumber, ofDate]
  omega

/-- A date is before the first day of the next month. -/
theorem lt_firstDayNumber_next_ofDate (d : Date) : d.day < (ofDate d).next.firstDayNumber := by
  have hday := d.day_eq_first_add
  have hnext := dayNumber_next (m := ofDate d) d.civil_month
  have hlast : d.civil.day ≤ monthLength d.year d.month := (civil_valid d.day).2.2.2
  simp only [firstDayNumber, ofDate] at *
  omega

/-- Dates in order are in months in order. -/
theorem number_ofDate_le {d e : Date} (h : d ≤ e) : (ofDate d).number ≤ (ofDate e).number := by
  by_contra hlt
  have hnext := firstDayNumber_le (ofYear_ofDate e).next (ofYear_ofDate d)
    (by rw [number_next]; omega)
  have hd := firstDayNumber_ofDate_le d
  have he := lt_firstDayNumber_next_ofDate e
  have h : d.day ≤ e.day := h
  omega

/-- The first day of a month is read by its number. -/
theorem firstDay?_eq (h : m.OfYear) : m.firstDay? = Date.ofDay? m.firstDayNumber := by
  have hvalid : (⟨m.year, m.month, 1⟩ : Civil).Valid :=
    ⟨h.first_le, h.le_last, Nat.le_refl 1, one_le_monthLength m.year m.month⟩
  rw [firstDay?, Date.ofCivil?, if_pos hvalid, firstDayNumber]

theorem day_of_firstDay? (h : m.OfYear) {d : Date} (hd : m.firstDay? = some d) :
    d.day = m.firstDayNumber :=
  Date.ofDay?_eq_some_iff.1 (firstDay?_eq h ▸ hd)

theorem ofDate_of_firstDay? {d : Date} (hd : m.firstDay? = some d) : ofDate d = m := by
  simp only [ofDate, Date.year, Date.month, Date.civil_of_ofCivil? hd]

/-- The calendar has the first days of the months from its first one to its last one. -/
theorem exists_firstDay?_iff (h : m.OfYear) : (∃ d, m.firstDay? = some d) ↔
    (ofDate .first).number ≤ m.number ∧ m.number ≤ (ofDate .last).number := by
  constructor
  · rintro ⟨d, hd⟩
    obtain rfl := ofDate_of_firstDay? hd
    exact ⟨number_ofDate_le d.first_le, number_ofDate_le d.le_last⟩
  · rintro ⟨hlow, hhigh⟩
    have hfirst : (ofDate .first).firstDayNumber = Date.firstDay := by decide
    have hge := firstDayNumber_le (ofYear_ofDate .first) h hlow
    have hle := firstDayNumber_le h (ofYear_ofDate .last) hhigh
    have hlast : (ofDate .last).firstDayNumber ≤ Date.lastDay := firstDayNumber_ofDate_le .last
    rw [hfirst] at hge
    exact ⟨⟨m.firstDayNumber, hge, by omega⟩,
      (firstDay?_eq h).trans (Date.ofDay?_eq_some_iff.2 rfl)⟩

end YearMonth

end FuturesChains
