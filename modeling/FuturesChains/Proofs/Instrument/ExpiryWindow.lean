import FuturesChains.Proofs.Instrument.CandidateOrder

/-!
# Windows of expiry

A window keeps the contracts that expire within some days of the local date. Its ends are day
numbers without a bound, brought to the nearest day of the calendar (`Date.nearestDay`): whatever
number of days no span holds leads out of the calendar too, so the calendar's range is the only one
that counts (`FilterUniverse.day_offsetDate`). The nearest day never falls as the number grows, and
so windows one after the other are the window that they share. `FilterUniverse.expiration_exact`
says so.
-/

namespace FuturesChains

/-- The number of the calendar's day that is nearest to a day number. -/
def Date.nearestDay (day : Int) : Int := max firstDay (min day lastDay)

theorem Date.monotone_nearestDay : Monotone nearestDay := by
  intro day day' hle
  exact max_le_max le_rfl (min_le_min hle le_rfl)

theorem Date.nearestDay_day (date : Date) : nearestDay date.day = date.day := by
  rw [nearestDay, min_eq_left date.le_last, max_eq_right date.first_le]

/-- A step that leaves the calendar leaves it on the side that it goes to. -/
theorem Date.nearestDay_of_add?_eq_none {date : Date} {days : Int} (h : date.add? days = none) :
    nearestDay (date.day + days) = if days < 0 then firstDay else lastDay := by
  have hlow := date.first_le
  have hhigh := date.le_last
  have houtside : ¬ (firstDay ≤ date.day + days ∧ date.day + days ≤ lastDay) := by
    intro hinside
    rw [add?, ofDay?, dif_pos hinside] at h
    cases h
  unfold nearestDay
  split
  · omega
  · omega

/-- Days that no span holds lead out of the calendar from each of its dates. -/
theorem Span.ofDays?_bind_add? (date : Date) (days : Int) :
    ((ofDays? days).bind fun span => date.add? span.days) = date.add? days := by
  cases hspan : ofDays? days with
  | some span => rw [Option.bind_some, days_ofDays? hspan]
  | none =>
      have hlow := date.first_le
      have hhigh := date.le_last
      have houtside : ¬ (Date.firstDay ≤ date.day + days ∧ date.day + days ≤ Date.lastDay) := by
        intro hinside
        -- the calendar is shorter than the longest span
        unfold ofDays? ofSeconds? at hspan
        split at hspan
        · cases hspan
        · simp only [maxMilliseconds, Date.firstDay, Date.lastDay] at *
          omega
      rw [Option.bind_none, Date.add?, Date.ofDay?, dif_neg houtside]

/-- The symbol expires, on a day from one number to another. -/
def Symbol.ExpiresWithin (s : Symbol) (low high : Int) : Prop :=
  ∃ date, s.expiry = some date ∧ low ≤ date.day ∧ date.day ≤ high

/-- The check looks at the expiry, if there is one. -/
instance (s : Symbol) (low high : Int) : Decidable (s.ExpiresWithin low high) :=
  decidable_of_iff (∃ date ∈ s.expiry, low ≤ date.day ∧ date.day ≤ high) Iff.rfl

/-- To expire in two windows is to expire in the window that they share. -/
theorem Symbol.expiresWithin_and {s : Symbol} {low high low' high' : Int} :
    s.ExpiresWithin low high ∧ s.ExpiresWithin low' high' ↔
      s.ExpiresWithin (max low low') (min high high') := by
  constructor
  · rintro ⟨⟨date, hdate, hlow, hhigh⟩, date', hdate', hlow', hhigh'⟩
    obtain rfl := Option.some.inj (hdate.symm.trans hdate')
    exact ⟨date, hdate, max_le hlow hlow', le_min hhigh hhigh'⟩
  · rintro ⟨date, hdate, hlow, hhigh⟩
    obtain ⟨hlow, hlow'⟩ := max_le_iff.1 hlow
    obtain ⟨hhigh, hhigh'⟩ := le_min_iff.1 hhigh
    exact ⟨⟨date, hdate, hlow, hhigh⟩, date, hdate, hlow', hhigh'⟩

namespace FilterUniverse

/-- A step of days ends on the day nearest to it that the calendar has. -/
theorem day_offsetDate (date : Date) (days : Int) :
    (offsetDate date days).day = Date.nearestDay (date.day + days) := by
  unfold offsetDate
  rw [Span.ofDays?_bind_add?]
  cases hadd : date.add? days with
  | some reached => rw [← Date.day_add? hadd, Date.nearestDay_day, Option.getD_some]
  | none =>
      rw [Date.nearestDay_of_add?_eq_none hadd, Option.getD_none]
      split
      · rfl
      · rfl

/-- One test after the other is both tests at once. -/
theorem keep_keep (u : FilterUniverse) (first second : Symbol → Bool) :
    (u.keep first).keep second = u.keep fun s => second s && first s :=
  congrArg (FilterUniverse.mk · _ _) List.filter_filter

/-- The contracts that a window keeps. -/
def inWindow (u : FilterUniverse) (minDays maxDays : Int) (s : Symbol) : Bool :=
  s.ExpiresWithin (Date.nearestDay (u.localDate.day + minDays))
    (Date.nearestDay (u.localDate.day + maxDays))

theorem inWindow_iff {u : FilterUniverse} {minDays maxDays : Int} {s : Symbol} :
    u.inWindow minDays maxDays s = true ↔
      s.ExpiresWithin (Date.nearestDay (u.localDate.day + minDays))
        (Date.nearestDay (u.localDate.day + maxDays)) :=
  decide_eq_true_iff

theorem expiration_eq_keep (u : FilterUniverse) (minDays maxDays : Int) :
    u.expiration minDays maxDays = u.keep (u.inWindow minDays maxDays) := by
  refine congrArg u.keep (funext fun s => Bool.eq_iff_iff.2 ?_)
  rw [inWindow_iff, Symbol.ExpiresWithin, ← day_offsetDate, ← day_offsetDate]
  cases s.expiry with
  | none => simp
  | some date =>
      rw [Bool.and_eq_true, decide_eq_true_eq, decide_eq_true_eq]
      constructor
      · rintro ⟨hlow, hhigh⟩
        exact ⟨date, rfl, hlow, hhigh⟩
      · rintro ⟨_, ⟨⟩, hlow, hhigh⟩
        exact ⟨hlow, hhigh⟩

/-- A window after another one keeps what the window that they share keeps. -/
theorem expiration_expiration (u : FilterUniverse) (minDays maxDays minDays' maxDays' : Int) :
    (u.expiration minDays maxDays).expiration minDays' maxDays' =
      u.expiration (max minDays minDays') (min maxDays maxDays') := by
  have hlow : Date.nearestDay (u.localDate.day + max minDays minDays') =
      max (Date.nearestDay (u.localDate.day + minDays))
        (Date.nearestDay (u.localDate.day + minDays')) := by
    rw [← max_add_add_left, Date.monotone_nearestDay.map_max]
  have hhigh : Date.nearestDay (u.localDate.day + min maxDays maxDays') =
      min (Date.nearestDay (u.localDate.day + maxDays))
        (Date.nearestDay (u.localDate.day + maxDays')) := by
    rw [← min_add_add_left, Date.monotone_nearestDay.map_min]
  have hshared : ∀ s, (u.inWindow minDays' maxDays' s && u.inWindow minDays maxDays s) =
      u.inWindow (max minDays minDays') (min maxDays maxDays') s := by
    intro s
    rw [Bool.eq_iff_iff, Bool.and_eq_true, inWindow_iff, inWindow_iff, inWindow_iff, hlow, hhigh,
      ← Symbol.expiresWithin_and, and_comm]
  rw [expiration_eq_keep, expiration_eq_keep u, expiration_eq_keep, keep_keep]
  exact congrArg u.keep (funext hshared)

/-- A wider window drops no contract that a narrower one keeps. -/
theorem expiration_sublist (u : FilterUniverse) {minDays maxDays minDays' maxDays' : Int}
    (hmin : minDays' ≤ minDays) (hmax : maxDays ≤ maxDays') :
    (u.expiration minDays maxDays).contracts.Sublist
      (u.expiration minDays' maxDays').contracts := by
  have hinner : (u.expiration minDays' maxDays').expiration minDays maxDays =
      u.expiration minDays maxDays := by
    rw [expiration_expiration, max_eq_right hmin, min_eq_right hmax]
  rw [← hinner]
  exact keep_sublist _ _

/-- A window holds exactly the contracts that expire on a day from its first to its last, in the
order they had, and leaves the rest of the universe as it is. Its ends are the numbers that the
local date and the days add up to, brought into the calendar, for any number of days. So two windows
keep what the later start and the earlier end leave, in either order, the same window again changes
nothing, and a wider window keeps all that a narrower one does. -/
theorem expiration_exact (u : FilterUniverse) :
    (∀ days, (offsetDate u.localDate days).day = Date.nearestDay (u.localDate.day + days)) ∧
      (∀ minDays maxDays, u.expiration minDays maxDays = u.keep fun s =>
        s.ExpiresWithin (Date.nearestDay (u.localDate.day + minDays))
          (Date.nearestDay (u.localDate.day + maxDays))) ∧
      (∀ minDays maxDays minDays' maxDays',
        (u.expiration minDays maxDays).expiration minDays' maxDays' =
          u.expiration (max minDays minDays') (min maxDays maxDays')) ∧
      (∀ minDays maxDays minDays' maxDays',
        (u.expiration minDays maxDays).expiration minDays' maxDays' =
          (u.expiration minDays' maxDays').expiration minDays maxDays) ∧
      (∀ minDays maxDays, (u.expiration minDays maxDays).expiration minDays maxDays =
        u.expiration minDays maxDays) ∧
      ∀ minDays maxDays minDays' maxDays', minDays' ≤ minDays → maxDays ≤ maxDays' →
        (u.expiration minDays maxDays).contracts.Sublist
          (u.expiration minDays' maxDays').contracts := by
  refine ⟨day_offsetDate u.localDate, expiration_eq_keep u, expiration_expiration u, ?_, ?_, ?_⟩
  · intro minDays maxDays minDays' maxDays'
    rw [expiration_expiration, expiration_expiration, max_comm, min_comm]
  · intro minDays maxDays
    rw [expiration_expiration, max_self, min_self]
  · intro minDays maxDays minDays' maxDays' hmin hmax
    exact expiration_sublist u hmin hmax

/-- On the last day but one of the calendar a window without an end keeps the contract of the last
day, which a window of one day keeps too, and not the one that has no expiry. -/
theorem expiration_exact_at_the_end :
    let chain : Symbol := .undated "CL" .future .nymex
    let final : Symbol := .future "CL" .nymex .last
    let u : FilterUniverse := ⟨[chain, final], { day := 95026235 }, false⟩
    (u.expiration (-9223372036854775808) 9223372036854775807).contracts = [final] ∧
      (u.expiration 1 1).contracts = [final] ∧
      (u.expiration 1 1).contracts.Sublist
        (u.expiration (-9223372036854775808) 9223372036854775807).contracts := by
  intro chain final u
  obtain ⟨-, hkept, -, -, -, hwider⟩ := expiration_exact u
  refine ⟨?_, ?_, hwider 1 1 (-9223372036854775808) 9223372036854775807 (by decide) (by decide)⟩
  · rw [hkept]
    decide
  · rw [hkept]
    decide

end FilterUniverse

end FuturesChains
