import FuturesChains.Proofs.Calendar.MonthStart
import FuturesChains.Proofs.Instrument.MonthSplit
import FuturesChains.Selection.Chain

/-!
# Front month selections

A chain's monthly listing holds contracts on the first days of months, and among them the one on the
first of the month that comes next. A front month filter puts the contracts that are alive in the
order of their expiry and keeps those of the nearest one. So whatever else is listed, and however
far beyond thirty days the filter looks, one contract is selected: that of the next first of a month
(`Security.select_frontMonth`).
-/

namespace FuturesChains

/-- A listing holds contracts of the chain on the first days of months. -/
theorem of_mem_listFrom {chain s : Symbol} {month : YearMonth} {count : Nat}
    (h : s ∈ listFrom chain month count) :
    ∃ date : Date, s = .future chain.id chain.market date ∧ date.civil.day = 1 := by
  induction count generalizing month with
  | zero => cases h
  | succ count ih =>
      unfold listFrom at h
      split at h
      · rename_i date hdate
        rcases List.mem_cons.1 h with rfl | h
        · exact ⟨date, rfl, by rw [Date.civil_of_ofCivil? hdate]⟩
        · exact ih h
      · exact ih h

/-- If the calendar reaches the next month, there is a next first of a month within thirty days. -/
theorem Date.exists_isNextFirst {today : Date}
    (hahead : (YearMonth.ofDate today).next.firstDay?.isSome = true) :
    ∃ first, today.IsNextFirst first ∧ first.day ≤ today.day + 30 := by
  obtain ⟨next, hnext⟩ := Option.isSome_iff_exists.1 hahead
  by_cases hday : today.civil.day = 1
  · exact ⟨today, isNextFirst_self hday, by omega⟩
  · exact ⟨next, isNextFirst_of_next hday hnext⟩

/-- Two months from a date on hold the contract of the next first of a month. -/
theorem mem_monthlyListing {chain : Symbol} {today first : Date} {count : Nat} (hcount : 2 ≤ count)
    (hahead : (YearMonth.ofDate today).next.firstDay?.isSome = true)
    (hfirst : today.IsNextFirst first) :
    .future chain.id chain.market first ∈ monthlyListing chain today count := by
  obtain ⟨next, hnext⟩ := Option.isSome_iff_exists.1 hahead
  obtain ⟨count, rfl⟩ := Nat.exists_eq_add_of_le' hcount
  by_cases hday : today.civil.day = 1
  · obtain rfl := hfirst.unique (Date.isNextFirst_self hday)
    have hhead : (YearMonth.ofDate first).firstDay? = some first := by
      rw [YearMonth.firstDay?, ← hday]
      exact first.ofCivil?_civil
    rw [monthlyListing, listFrom, hhead]
    exact List.mem_cons_self
  · obtain rfl := hfirst.unique (Date.isNextFirst_of_next hday hnext).1
    have hrest : .future chain.id chain.market first ∈
        listFrom chain (YearMonth.ofDate today).next (count + 1) := by
      rw [listFrom, hnext]
      exact List.mem_cons_self
    rw [monthlyListing, listFrom]
    split
    · exact List.mem_cons_of_mem _ hrest
    · exact hrest

namespace Symbol

/-- A list of one symbol, however often it stands there, is that symbol in order. -/
theorem ascending_eq_singleton {symbols : List Symbol} {s : Symbol}
    (h : ∀ t, t ∈ symbols ↔ t = s) : ascending symbols = [s] := by
  have hmem : ∀ t, t ∈ ascending symbols ↔ t = s := fun t => mem_ascending.trans (h t)
  have hsorted := isAscending_ascending symbols
  cases hlist : ascending symbols with
  | nil =>
      rw [hlist] at hmem
      cases (hmem s).2 rfl
  | cons first rest =>
      rw [hlist] at hmem hsorted
      obtain rfl := (hmem first).1 (by simp)
      cases rest with
      | nil => rfl
      | cons second rest =>
          obtain rfl := (hmem second).1 (by simp)
          have hlt := (List.pairwise_cons.1 hsorted).1 second (by simp)
          have heq : second.compare second = .eq := Std.ReflCmp.compare_self
          rw [heq] at hlt
          cases hlt

end Symbol

namespace FilterUniverse

/-- The front month of candidates in order are those of the earliest expiry. -/
theorem mem_frontMonth {u : FilterUniverse} {s t : Symbol} {first : Date}
    (hsorted : u.InOrder)
    (hs : s ∈ u.contracts) (hexpiry : s.expiry = some first)
    (hearliest : ∀ other ∈ u.contracts, ∃ date, other.expiry = some date ∧ first ≤ date) :
    t ∈ u.frontMonth.contracts ↔ t ∈ u.contracts ∧ t.expiry = some first := by
  have hnearest : u.nearest? = some first := by
    cases hnear : u.nearest? with
    | none =>
        have hdated : u.IsDated := by
          intro other hother
          obtain ⟨date, hdate, -⟩ := hearliest other hother
          exact Option.isSome_iff_exists.2 ⟨date, hdate⟩
        rw [hdated.contracts_eq_nil hnear] at hs
        cases hs
    | some near =>
        obtain ⟨other, hother, hdate⟩ := mem_of_nearest? hnear
        obtain ⟨date, hdate', hle⟩ := hearliest other hother
        obtain rfl := Option.some.inj (hdate.symm.trans hdate')
        have hge := hsorted.le_of_nearest? hnear hs hexpiry
        rw [Date.eq_of_day_eq (Int.le_antisymm hge hle)]
  rw [frontMonth_of_nearest? hnearest]
  simp [keep]

theorem offsetDate_zero (date : Date) : offsetDate date 0 = date := by
  apply Date.eq_of_day_eq
  rw [day_offsetDate, Int.add_zero, Date.nearestDay_day]

/-- A date within some days is not after the end of the window of that many days, whether the
calendar holds all of it or not. -/
theorem le_offsetDate {today date : Date} {days : Int} (h : date.day ≤ today.day + days) :
    date ≤ offsetDate today days := by
  show date.day ≤ (offsetDate today days).day
  rw [day_offsetDate, ← Date.nearestDay_day date]
  exact Date.monotone_nearestDay h

end FilterUniverse

/-- A contract of a chain belongs to it. -/
theorem Symbol.toCanonical_future {chain : Symbol}
    (hchain : chain.kind = .future ∧ chain.expiry = none) (date : Date) :
    (Symbol.future chain.id chain.market date).toCanonical = chain := by
  obtain ⟨id, kind, market, expiry⟩ := chain
  obtain ⟨rfl, rfl⟩ := hchain
  rfl

/-- A contract of a chain is alive up to its expiry. -/
theorem isLiveContract_future {chain : Symbol} (hchain : chain.kind = .future ∧ chain.expiry = none)
    (today date : Date) :
    isLiveContract chain today (.future chain.id chain.market date) = decide (today ≤ date) := by
  simp only [isLiveContract, Symbol.toCanonical_future hchain, decide_true, Bool.true_and]
  rfl

/-- Narrowing candidates asks for no open market. -/
theorem FilterUniverse.onlyAtMarketOpen_frontMonth (u : FilterUniverse) :
    u.frontMonth.onlyAtMarketOpen = u.onlyAtMarketOpen := by
  unfold frontMonth
  split
  · rfl
  · rfl

/-- A front month filter that looks thirty days or more ahead selects one contract from a monthly
listing of the chain, that of the next first of a month. -/
theorem ContractFilter.mem_apply_frontMonth {chain t : Symbol} {today first : Date}
    {maxDays : Int} {months : Nat} (hmax : 30 ≤ maxDays) (hmonths : 2 ≤ months)
    (hchain : chain.kind = .future ∧ chain.expiry = none)
    (hahead : (YearMonth.ofDate today).next.firstDay?.isSome = true)
    (hfirst : today.IsNextFirst first) :
    let live := (monthlyListing chain today months).filter (isLiveContract chain today)
    t ∈ ((ContractFilter.frontMonth maxDays).apply (.ofContracts live today)).contracts ↔
      t = .future chain.id chain.market first := by
  intro live
  let u := (FilterUniverse.ofContracts live today).expiration 0 maxDays
  have hu : ∀ s, s ∈ u.contracts → ∃ date, s = .future chain.id chain.market date ∧
      first ≤ date := by
    intro s hs
    have hs := FilterUniverse.mem_ofContracts.1 (List.mem_filter.1 hs).1
    obtain ⟨hlisted, hlive⟩ := List.mem_filter.1 hs
    obtain ⟨date, rfl, hday⟩ := of_mem_listFrom hlisted
    rw [isLiveContract_future hchain] at hlive
    exact ⟨date, rfl, hfirst.earliest date hday (of_decide_eq_true hlive)⟩
  have hnear : first.day ≤ today.day + maxDays := by
    obtain ⟨other, hother, hnear⟩ := Date.exists_isNextFirst hahead
    rw [hfirst.unique hother]
    omega
  have hmember : .future chain.id chain.market first ∈ u.contracts := by
    refine List.mem_filter.2 ⟨FilterUniverse.mem_ofContracts.2 (List.mem_filter.2 ⟨?_, ?_⟩), ?_⟩
    · exact mem_monthlyListing hmonths hahead hfirst
    · rw [isLiveContract_future hchain]
      exact decide_eq_true hfirst.le
    · simp only [Symbol.future, Bool.and_eq_true, decide_eq_true_eq]
      refine ⟨?_, FilterUniverse.le_offsetDate hnear⟩
      rw [FilterUniverse.offsetDate_zero]
      exact hfirst.le
  have hsorted : u.InOrder := (FilterUniverse.pairwise_ofContracts live today).filter _
  refine (FilterUniverse.mem_frontMonth hsorted hmember rfl ?_).trans ⟨?_, ?_⟩
  · intro s hs
    obtain ⟨date, rfl, hle⟩ := hu s hs
    exact ⟨date, rfl, hle⟩
  · rintro ⟨hs, hexpiry⟩
    obtain ⟨date, rfl, -⟩ := hu t hs
    rw [Option.some.inj hexpiry]
  · rintro rfl
    exact ⟨hmember, rfl⟩

/-- So the security of a chain with such a filter selects that contract, whether its exchange is
open or not. -/
theorem Security.select_frontMonth {s : Security} {now : Instant} {today first : Date}
    {maxDays : Int} {months : Nat} (hfilter : s.filter = .frontMonth maxDays)
    (hmax : 30 ≤ maxDays) (hmonths : 2 ≤ months)
    (hchain : s.symbol.kind = .future ∧ s.symbol.expiry = none)
    (htoday : s.hours.localDate? now = some today)
    (hahead : (YearMonth.ofDate today).next.firstDay?.isSome = true)
    (hfirst : today.IsNextFirst first) :
    ∃ contracts, s.select now (monthlyListing s.symbol today months) = .ok (some contracts) ∧
      Symbol.ascending contracts = [.future s.symbol.id s.symbol.market first] := by
  have hopen : (s.hours.isOpen? .both now).isSome = true := by
    rw [MarketHours.isSome_isOpen?, htoday]
    rfl
  obtain ⟨isOpen, hisOpen⟩ := Option.isSome_iff_exists.1 hopen
  refine ⟨_, ?_, Symbol.ascending_eq_singleton fun t =>
    ContractFilter.mem_apply_frontMonth hmax hmonths hchain hahead hfirst⟩
  have hanyTime : ∀ u, ((ContractFilter.frontMonth maxDays).apply u).onlyAtMarketOpen =
      u.onlyAtMarketOpen := fun u => FilterUniverse.onlyAtMarketOpen_frontMonth _
  simp [Security.select, htoday, hisOpen, hfilter, hanyTime, Halt.orStop, bind, Except.bind, pure,
    Except.pure, FilterUniverse.ofContracts]

end FuturesChains
