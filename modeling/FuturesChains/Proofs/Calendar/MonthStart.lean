import FuturesChains.FrontMonth

/-!
# First days of months

The first of a month that a date comes to next, the date itself included. On the first of a month it
is that day, and otherwise the first day of the month after (`isNextFirst_of_next`), at most thirty
days away. Months are measured by day numbers: the days of a month follow its first one, and the
first day of the next month follows the last of them (`YearMonth.dayNumber_next`).
-/

namespace FuturesChains

open Calendar

/-- A day of a month has the number of the month's first day and of the days passed since. -/
theorem Calendar.dayNumber_eq_first_add (year : Int) (month day : Nat) :
    (⟨year, month, day⟩ : Civil).dayNumber = (⟨year, month, 1⟩ : Civil).dayNumber + day - 1 := by
  simp only [Civil.dayNumber]
  omega

theorem Calendar.monthLength_le (year : Int) (month : Nat) : monthLength year month ≤ 31 := by
  unfold monthLength
  repeat' split
  all_goals omega

/-- The first day of the next month follows the last day of a month. -/
theorem YearMonth.dayNumber_next {m : YearMonth} (h : 1 ≤ m.month ∧ m.month ≤ 12) :
    (⟨m.next.year, m.next.month, 1⟩ : Civil).dayNumber =
      (⟨m.year, m.month, 1⟩ : Civil).dayNumber + monthLength m.year m.month := by
  obtain ⟨year, month⟩ := m
  obtain ⟨hfirst, hlast⟩ := h
  simp only at hfirst hlast
  by_cases hyear : month = 12
  · subst hyear
    have hlength : monthLength year 12 = 31 := rfl
    simp only [next, Civil.dayNumber, hlength, monthStart, Nat.reduceLeDiff, ↓reduceIte,
      Int.add_sub_cancel]
    omega
  · simp only [next, hyear, if_false]
    by_cases hfeb : month ≤ 2
    · rcases (show month = 1 ∨ month = 2 by omega) with rfl | rfl
      · have hlength : monthLength year 1 = 31 := rfl
        simp only [Civil.dayNumber, hlength, monthStart, Nat.reduceLeDiff, Nat.reduceAdd,
          ↓reduceIte]
        omega
      -- March starts the year of a leap day's count, so February is what is left of the one before
      · have hlength : monthLength year 2 = if isLeapYear year then 29 else 28 := rfl
        have hmarch := marchStart_succ (year - 1)
        rw [Int.sub_add_cancel] at hmarch
        simp only [Civil.dayNumber, hlength, monthStart, Nat.reduceLeDiff, Nat.reduceAdd,
          ↓reduceIte]
        split at hmarch <;> simp_all <;> omega
    · have hlength := monthLength_march year (show month - 3 < 10 by omega)
      rw [show month - 3 + 3 = month by omega] at hlength
      have hnext : ¬ month + 1 ≤ 2 := by omega
      simp only [Civil.dayNumber, hfeb, hnext, if_false, hlength,
        show month + 1 - 3 = month - 3 + 1 by omega, monthStart]
      omega

namespace Date

/-- The date is the first of a month, the earliest one that is not before another date. -/
structure IsNextFirst (today first : Date) : Prop where
  day_eq : first.civil.day = 1
  le : today ≤ first
  earliest : ∀ other : Date, other.civil.day = 1 → today ≤ other → first ≤ other

theorem civil_month (d : Date) : 1 ≤ d.month ∧ d.month ≤ 12 :=
  ⟨(civil_valid d.day).1, (civil_valid d.day).2.1⟩

/-- The day number of a date from that of the first of its month. -/
theorem day_eq_first_add (d : Date) :
    d.day = (⟨d.year, d.month, 1⟩ : Civil).dayNumber + d.civil.day - 1 := by
  rw [← dayNumber_eq_first_add]
  exact (dayNumber_civil d.day).symm

/-- There is one such date. -/
theorem IsNextFirst.unique {today first other : Date} (h : today.IsNextFirst first)
    (h' : today.IsNextFirst other) : first = other := by
  have hle := h.earliest other h'.day_eq h'.le
  have hge := h'.earliest first h.day_eq h.le
  exact eq_of_day_eq (Int.le_antisymm hle hge)

/-- On the first of a month it is that day. -/
theorem isNextFirst_self {today : Date} (h : today.civil.day = 1) : today.IsNextFirst today where
  day_eq := h
  le := Int.le_refl _
  earliest := fun _ _ hle => hle

/-- On any other day it is the first of the next month, within thirty days. -/
theorem isNextFirst_of_next {today first : Date} (h : today.civil.day ≠ 1)
    (hnext : (YearMonth.ofDate today).next.firstDay? = some first) :
    today.IsNextFirst first ∧ first.day ≤ today.day + 30 := by
  have hvalid := civil_valid today.day
  have hday : first.civil.day = 1 := by rw [civil_of_ofCivil? hnext]
  have hfirst : first.day =
      (⟨today.year, today.month, 1⟩ : Civil).dayNumber + monthLength today.year today.month := by
    have hmonth := YearMonth.dayNumber_next (m := .ofDate today) today.civil_month
    have hnumber := first.day_eq_first_add
    simp only [year, month, civil_of_ofCivil? hnext] at hnumber
    simp only [YearMonth.ofDate] at hmonth hnumber
    omega
  have htoday := today.day_eq_first_add
  have hpassed : 1 ≤ today.civil.day ∧ today.civil.day ≤ monthLength today.year today.month :=
    hvalid.2.2
  have hlength := monthLength_le today.year today.month
  refine ⟨⟨hday, ?_, ?_⟩, by omega⟩
  · show today.day ≤ first.day
    omega
  · intro other hother hle
    have hle : today.day ≤ other.day := hle
    rcases Int.lt_or_le other.day first.day with hlt | hge
    -- a date before the next month's first day is one of this month's days after today
    · obtain ⟨day, hday⟩ : ∃ day : Nat,
          other.day = (⟨today.year, today.month, 1⟩ : Civil).dayNumber + day - 1 :=
        ⟨(other.day - (⟨today.year, today.month, 1⟩ : Civil).dayNumber).toNat + 1, by omega⟩
      have hlow : 1 ≤ day := by omega
      have hhigh : day ≤ monthLength today.year today.month := by omega
      have hmember : (⟨today.year, today.month, day⟩ : Civil).Valid :=
        ⟨hvalid.1, hvalid.2.1, hlow, hhigh⟩
      have hnumber : (⟨today.year, today.month, day⟩ : Civil).dayNumber = other.day := by
        rw [dayNumber_eq_first_add, hday]
      have hcivil : other.civil = ⟨today.year, today.month, day⟩ := by
        rw [Date.civil, ← hnumber]
        exact civil_dayNumber hmember
      rw [hcivil] at hother
      simp only at hother
      omega
    · exact hge

end Date

end FuturesChains
