import Mathlib
import FuturesChains.Proofs.Calendar.MonthNumber
import FuturesChains.Proofs.Instrument.FrontMonth

/-!
# Monthly listings

The listing of a chain from a date on is the run of its contracts in consecutive months, the month
of the date first. `getElem?_listFrom` says what stands at each place of a listing. Months are left
out behind the last one of the calendar only, so a listing ends there or has as many contracts as it
was asked for (`length_monthlyListing`).
-/

namespace FuturesChains

open Calendar

/-- The contract of a chain on the first day of a month, if the calendar has that day. -/
def Symbol.ofMonth? (chain : Symbol) (month : YearMonth) : Option Symbol :=
  month.firstDay?.map (.future chain.id chain.market)

/-- The number of months from a date's month to the last one of the calendar, both counted. -/
def Date.monthsLeft (d : Date) : Nat :=
  ((YearMonth.ofDate .last).number + 1 - (YearMonth.ofDate d).number).toNat

variable {chain : Symbol} {month : YearMonth} {start : Date}

namespace YearMonth

/-- The month is not before the calendar's first one. -/
structure Reached (m : YearMonth) : Prop extends m.OfYear where
  number_le : (ofDate .first).number ≤ m.number

theorem reached_ofDate (d : Date) : (ofDate d).Reached :=
  ⟨ofYear_ofDate d, number_ofDate_le d.first_le⟩

theorem Reached.next (h : month.Reached) : month.next.Reached :=
  ⟨h.toOfYear.next, by rw [number_next]; exact Int.le_add_one h.number_le⟩

theorem Reached.later (h : month.Reached) (months : Nat) : (month.later months).Reached :=
  ⟨ofYear_later month months, by rw [number_later]; have := h.number_le; omega⟩

/-- Only behind its end does the calendar miss the first day of such a month. -/
theorem Reached.firstDay?_eq_none_iff (h : month.Reached) :
    month.firstDay? = none ↔ (ofDate .last).number < month.number := by
  rw [Option.eq_none_iff_forall_ne_some, ← not_exists, exists_firstDay?_iff h.toOfYear]
  have := h.number_le
  omega

end YearMonth

theorem Symbol.ofMonth?_eq_none_iff (h : month.Reached) :
    chain.ofMonth? month = none ↔ (YearMonth.ofDate .last).number < month.number := by
  rw [Symbol.ofMonth?, Option.map_eq_none_iff, h.firstDay?_eq_none_iff]

theorem listFrom_succ (chain : Symbol) (month : YearMonth) (count : Nat) :
    listFrom chain month (count + 1) =
      (chain.ofMonth? month).toList ++ listFrom chain month.next count := by
  rw [listFrom, Symbol.ofMonth?]
  cases month.firstDay? with
  | some date => rfl
  | none => rfl

/-- At each place of a listing stands the contract of the month that is as many months later. By
induction on the number of months; from a month behind the calendar's end on there is nothing. -/
theorem getElem?_listFrom (h : month.Reached) (count k : Nat) :
    (listFrom chain month count)[k]? =
      if k < count then chain.ofMonth? (month.later k) else none := by
  induction count generalizing month k with
  | zero => rfl
  | succ count ih =>
      have hrest := ih h.next
      simp only [YearMonth.later_next] at hrest
      rw [listFrom_succ]
      cases hmonth : chain.ofMonth? month with
      | some s =>
          cases k with
          | zero => simp [YearMonth.later_zero h.toOfYear, hmonth]
          | succ k => simpa using hrest k
      | none =>
          -- a month that the calendar misses is behind its end, and so are all that follow
          have hbehind : ∀ months, chain.ofMonth? (month.later months) = none := by
            intro months
            have hend := (Symbol.ofMonth?_eq_none_iff h).1 hmonth
            rw [Symbol.ofMonth?_eq_none_iff (h.later months), YearMonth.number_later]
            omega
          simp [hrest, hbehind]

/-- A listing goes on, after some of its months, with that of the month that they lead to. -/
theorem listFrom_add (chain : Symbol) (month : YearMonth) (passes rest : Nat) :
    listFrom chain month (passes + rest) =
      listFrom chain month passes ++ listFrom chain (YearMonth.next^[passes] month) rest := by
  induction passes generalizing month with
  | zero => rw [Nat.zero_add]; rfl
  | succ passes ih =>
      rw [Nat.succ_add, listFrom_succ, listFrom_succ, ih, Function.iterate_succ_apply,
        List.append_assoc]

/-- A listing has as many contracts as it was asked for, unless the calendar ends before. -/
theorem length_monthlyListing (chain : Symbol) (start : Date) (count : Nat) :
    (monthlyListing chain start count).length = min count start.monthsLeft := by
  have hstart := YearMonth.reached_ofDate start
  refine eq_of_forall_ge_iff fun k => ?_
  rw [← List.getElem?_eq_none_iff, monthlyListing, getElem?_listFrom hstart, min_le_iff,
    Date.monthsLeft]
  split
  · rw [Symbol.ofMonth?_eq_none_iff (hstart.later k), YearMonth.number_later]
    omega
  · simp only [true_iff]
    omega

/-- The contracts of a listing are dated on the first days of the months from its start on. -/
theorem of_getElem?_monthlyListing {count k : Nat} {s : Symbol}
    (h : (monthlyListing chain start count)[k]? = some s) :
    ∃ date, s = .future chain.id chain.market date ∧
      ((YearMonth.ofDate start).later k).firstDay? = some date := by
  rw [monthlyListing, getElem?_listFrom (YearMonth.reached_ofDate start)] at h
  split at h
  · obtain ⟨date, hdate, rfl⟩ := Option.map_eq_some_iff.1 h
    exact ⟨date, rfl, hdate⟩
  · cases h

/-- Two contracts of a listing are as many months apart as they are places apart, and the one at the
later place expires later. -/
theorem exists_dates_monthlyListing {count i j : Nat}
    (hi : i < (monthlyListing chain start count).length)
    (hj : j < (monthlyListing chain start count).length) :
    ∃ d ∈ (monthlyListing chain start count)[i].expiry,
      ∃ e ∈ (monthlyListing chain start count)[j].expiry,
        (YearMonth.ofDate d).number = (YearMonth.ofDate start).number + i ∧
        (YearMonth.ofDate e).number = (YearMonth.ofDate start).number + j ∧
        (i < j → d < e) := by
  obtain ⟨d, hcontract, hd⟩ := of_getElem?_monthlyListing (List.getElem?_eq_getElem hi)
  obtain ⟨e, hother, he⟩ := of_getElem?_monthlyListing (List.getElem?_eq_getElem hj)
  have hmonth := YearMonth.ofYear_later (.ofDate start)
  rw [hcontract, hother]
  refine ⟨d, rfl, e, rfl, ?_, ?_, fun hlt => ?_⟩
  · rw [YearMonth.ofDate_of_firstDay? hd, YearMonth.number_later]
  · rw [YearMonth.ofDate_of_firstDay? he, YearMonth.number_later]
  · show d.day < e.day
    rw [YearMonth.day_of_firstDay? (hmonth i) hd, YearMonth.day_of_firstDay? (hmonth j) he]
    apply YearMonth.firstDayNumber_lt (hmonth i) (hmonth j)
    simp only [YearMonth.number_later]
    omega

/-- Of a listing only the first contract can have expired on the date that it starts from, and it
has unless that date is the first of its month. -/
theorem isLiveContract_getElem?_monthlyListing (hchain : chain.kind = .future ∧ chain.expiry = none)
    {count k : Nat} {s : Symbol} (h : (monthlyListing chain start count)[k]? = some s) :
    isLiveContract chain start s = false ↔ k = 0 ∧ start.civil.day ≠ 1 := by
  obtain ⟨date, rfl, hdate⟩ := of_getElem?_monthlyListing h
  have hday := YearMonth.day_of_firstDay? (YearMonth.ofYear_later _ k) hdate
  rw [isLiveContract_future hchain, decide_eq_false_iff_not]
  cases k with
  | zero =>
      have hfirst := start.day_eq_first_add
      have hpassed : 1 ≤ start.civil.day := (civil_valid start.day).2.2.1
      rw [YearMonth.later_zero (YearMonth.ofYear_ofDate start)] at hday
      simp only [YearMonth.firstDayNumber, YearMonth.ofDate] at hday
      simp only [true_and]
      show ¬ start.day ≤ date.day ↔ _
      omega
  | succ k =>
      have hnext := YearMonth.lt_firstDayNumber_next_ofDate start
      have hlater := YearMonth.firstDayNumber_le (YearMonth.ofYear_ofDate start).next
        (YearMonth.ofYear_later (.ofDate start) (k + 1))
        (by rw [YearMonth.number_next, YearMonth.number_later]; omega)
      have hlive : start.day ≤ date.day := by omega
      exact iff_of_false (not_not_intro hlive) (by simp)

/-- The year fits in 32 bits with a sign, and the month in 32 bits without one. -/
structure YearMonth.Fits32 (m : YearMonth) : Prop where
  le_year : -(twoTo 31 : Int) ≤ m.year
  year_lt : m.year < twoTo 31
  month_lt : m.month < twoTo 32

/-- The years of the calendar leave room for all the months that 32 bits can count. -/
theorem YearMonth.fits32_iterate_next (start : Date) {passes : Nat} (h : passes < twoTo 32) :
    (YearMonth.next^[passes] (.ofDate start)).Fits32 := by
  have hlow := (reached_ofDate start).number_le
  have hhigh := number_ofDate_le (d := start) (e := .last) start.le_last
  rw [number_ofDate_first] at hlow
  rw [number_ofDate_last] at hhigh
  have hmonth := ofYear_later (.ofDate start) passes
  have hnumber := number_later (.ofDate start) passes
  rw [iterate_next (ofYear_ofDate start)]
  obtain ⟨hmonthLow, hmonthHigh⟩ := hmonth
  have h31 : twoTo 31 = 2147483648 := rfl
  have h32 : twoTo 32 = 4294967296 := rfl
  simp only [number] at *
  constructor <;> omega

/-- The listing of a chain from a date on has the contracts of the chain in the months from that of
the date on, as many as it was asked for unless the calendar ends before. So their expiries rise
from one month to the next, all are contracts of the chain, and only the first can have expired on
the date, which it has unless the date is the first of its month. Fewer months give the first part
of the listing, and for any number of months in 32 bits the year and the month that are counted stay
in 32 bits. -/
theorem monthly_listing_consecutive {chain : Symbol}
    (hchain : chain.kind = .future ∧ chain.expiry = none) (start : Date) (count : Nat) :
    let listing := monthlyListing chain start count
    listing.length = min count start.monthsLeft ∧
      (∀ (k : Nat) s, listing[k]? = some s →
        ∃ date, s = .future chain.id chain.market date ∧ date.civil.day = 1 ∧
          (YearMonth.ofDate date).number = (YearMonth.ofDate start).number + k) ∧
      listing.Pairwise (fun s t => ∃ d ∈ s.expiry, ∃ e ∈ t.expiry, d < e) ∧
      listing.IsChain (fun s t => ∃ d ∈ s.expiry, ∃ e ∈ t.expiry,
        (YearMonth.ofDate e).number = (YearMonth.ofDate d).number + 1) ∧
      (∀ s ∈ listing, s.toCanonical = chain) ∧
      (∀ (k : Nat) s, listing[k]? = some s →
        (isLiveContract chain start s = false ↔ k = 0 ∧ start.civil.day ≠ 1)) ∧
      (∀ fewer ≤ count, monthlyListing chain start fewer <+: listing) ∧
      ∀ passes ≤ count,
        listing = monthlyListing chain start passes ++
          listFrom chain (YearMonth.next^[passes] (.ofDate start)) (count - passes) ∧
        (count < twoTo 32 → (YearMonth.next^[passes] (.ofDate start)).Fits32) := by
  intro listing
  have hsplit : ∀ passes ≤ count, listing = monthlyListing chain start passes ++
      listFrom chain (YearMonth.next^[passes] (.ofDate start)) (count - passes) := by
    intro passes hpasses
    rw [monthlyListing, ← listFrom_add, Nat.add_sub_cancel' hpasses]
    rfl
  refine ⟨length_monthlyListing chain start count, ?_, ?_, ?_, ?_,
    fun k s => isLiveContract_getElem?_monthlyListing hchain, ?_, ?_⟩
  · intro k s hs
    obtain ⟨date, hcontract, hdate⟩ := of_getElem?_monthlyListing hs
    refine ⟨date, hcontract, by rw [Date.civil_of_ofCivil? hdate], ?_⟩
    rw [YearMonth.ofDate_of_firstDay? hdate, YearMonth.number_later]
  · refine List.pairwise_iff_getElem.2 fun i j hi hj hlt => ?_
    obtain ⟨d, hd, e, he, -, -, hrise⟩ := exists_dates_monthlyListing hi hj
    exact ⟨d, hd, e, he, hrise hlt⟩
  · refine List.isChain_iff_getElem.2 fun i hi => ?_
    obtain ⟨d, hd, e, he, hmonth, hnext, -⟩ := exists_dates_monthlyListing (Nat.lt_of_succ_lt hi) hi
    exact ⟨d, hd, e, he, by omega⟩
  · intro s hs
    obtain ⟨date, rfl, -⟩ := of_mem_listFrom hs
    exact Symbol.toCanonical_future hchain date
  · intro fewer hfewer
    exact ⟨_, (hsplit fewer hfewer).symm⟩
  · intro passes hpasses
    exact ⟨hsplit passes hpasses, fun hcount => YearMonth.fits32_iterate_next start (by omega)⟩

/-- Crude oil in the last November of the calendar, listed for as many months as 32 bits count: the
contracts of November, which expired on its first day, and of December are all. -/
theorem monthly_listing_consecutive_calendar_end :
    let oil : Symbol := .undated "CL" .future .nymex
    let start : Date := { day := 95026195 }
    let november : Symbol := .future "CL" .nymex { day := 95026176 }
    let december : Symbol := .future "CL" .nymex { day := 95026206 }
    let listing := monthlyListing oil start (twoTo 32 - 1)
    (oil.kind = .future ∧ oil.expiry = none) ∧ start.civil = ⟨262142, 11, 20⟩ ∧
      listing = [november, december] ∧ isLiveContract oil start november = false ∧
      isLiveContract oil start december = true ∧ monthlyListing oil start 1 <+: listing ∧
      (YearMonth.next^[twoTo 32 - 1] (.ofDate start)).Fits32 := by
  intro oil start november december listing
  have hchain : oil.kind = .future ∧ oil.expiry = none := ⟨rfl, rfl⟩
  obtain ⟨hlength, -, -, -, -, hlive, hfewer, hpasses⟩ :=
    monthly_listing_consecutive hchain start (twoTo 32 - 1)
  have htwo : monthlyListing oil start 2 = [november, december] := by decide +kernel
  have hleft : start.monthsLeft = 2 := by decide +kernel
  have hlisting : listing = [november, december] := by
    rw [← htwo]
    refine ((hfewer 2 (by decide)).eq_of_length ?_).symm
    rw [hlength, hleft, htwo]
    rfl
  have hplaces : listing[0]? = some november ∧ listing[1]? = some december := by
    rw [hlisting]
    exact ⟨rfl, rfl⟩
  refine ⟨hchain, by decide +kernel, hlisting, ?_, ?_, hfewer 1 (by decide), ?_⟩
  · exact (hlive 0 november hplaces.1).2 ⟨rfl, by decide +kernel⟩
  · have hlater := (hlive 1 december hplaces.2).not.2 (by simp)
    simpa using hlater
  · exact (hpasses (twoTo 32 - 1) (Nat.le_refl _)).2 (by decide)

end FuturesChains
