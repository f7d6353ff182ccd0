import Mathlib
import FuturesChains.Market.Hours

/-!
# Sessions on the line of days

A session rule opens a window on every day whose day of the week it has. The window is a half-open
interval of seconds from midnight of that day, and it ends on the next day if the rule closes at an
earlier time of day than it opens. The rule itself looks at the day of the week and the second of
the day only. `SessionRule.holds_iff_covers` says that it finds the windows that were opened on the
day itself and on the day before, and these are all that reach the day.
`MarketHours.open_iff_in_window` carries this over to the hours of an exchange, and says what
further rules and holidays change.
-/

namespace FuturesChains

/-- The day of the week of a day number, Sunday as 0. -/
def Calendar.weekday (day : Int) : Fin 7 := ⟨((day + 4) % 7).toNat, by omega⟩

theorem Calendar.weekday_pred (day : Int) : weekday (day - 1) = weekday day - 1 := by
  apply Fin.ext
  simp only [weekday, Fin.sub_def]
  omega

namespace SessionRule

/-- Both times of day are at most midnight at the end of the day. -/
structure OnClock (r : SessionRule) : Prop where
  opens_le : r.opens ≤ 86400
  closes_le : r.closes ≤ 86400

/-- The seconds of the window that the rule opens on a day, counted from midnight of that day. -/
def window (r : SessionRule) : Set Int :=
  Set.Ico r.opens (if r.closes < r.opens then r.closes + 86400 else r.closes)

/-- The rule opens a window on one local day that holds a second of another. -/
structure Covers (r : SessionRule) (opened day : Int) (second : Nat) : Prop where
  opens : r.days[Calendar.weekday opened] = true
  mem_window : (second : Int) + 86400 * (day - opened) ∈ r.window

variable {r : SessionRule} {opened day : Int} {second : Nat}

theorem covers_iff : r.Covers opened day second ↔ r.days[Calendar.weekday opened] = true ∧
    (second : Int) + 86400 * (day - opened) ∈ r.window :=
  ⟨fun h => ⟨h.opens, h.mem_window⟩, fun h => ⟨h.1, h.2⟩⟩

/-- On the day that it was opened on, a window that runs past midnight does not end. -/
theorem mem_window_same_day (hsecond : second < 86400) :
    (second : Int) + 86400 * (day - day) ∈ r.window ↔
      r.opens ≤ second ∧ (r.closes < r.opens ∨ second < r.closes) := by
  unfold window
  rw [Set.mem_Ico]
  split
  · omega
  · omega

/-- On the day after, only a window that runs past midnight is left. -/
theorem mem_window_next_day (hclock : r.OnClock) :
    (second : Int) + 86400 * (day - (day - 1)) ∈ r.window ↔
      r.closes < r.opens ∧ second < r.closes := by
  obtain ⟨hopens, hcloses⟩ := hclock
  unfold window
  rw [Set.mem_Ico]
  split
  · omega
  · omega

/-- A rule holds a second of a date exactly if it opened a window on that day or the day before that
holds the second. -/
theorem holds_iff_covers (hclock : r.OnClock) {date : Date} (hsecond : second < 86400) :
    r.holds date.weekday second = true ↔
      ∃ opened, (opened = date.day ∨ opened = date.day - 1) ∧
        r.Covers opened date.day second := by
  have htoday : r.Covers date.day date.day second ↔ r.days[date.weekday] = true ∧
      r.opens ≤ second ∧ (r.closes < r.opens ∨ second < r.closes) := by
    rw [covers_iff, mem_window_same_day hsecond]
    rfl
  have hyesterday : r.Covers (date.day - 1) date.day second ↔ r.days[date.weekday - 1] = true ∧
      r.closes < r.opens ∧ second < r.closes := by
    have hweekday : r.days[Calendar.weekday (date.day - 1)] = r.days[date.weekday - 1] := by
      simp only [Calendar.weekday_pred]
      rfl
    rw [covers_iff, mem_window_next_day hclock, hweekday]
  simp only [or_and_right, exists_or, exists_eq_left, htoday, hyesterday]
  by_cases hwraps : r.closes < r.opens
  · simp [holds, wraps, hwraps]
  · simp [holds, wraps, hwraps, and_assoc]

end SessionRule

namespace MarketHours

variable {h : MarketHours} {sessions : Sessions} {t : Instant} {date : Date} {second : Nat}

theorem isOpenLocal_iff : h.isOpenLocal sessions date second = true ↔
    date ∉ h.holidays ∧ ∃ r ∈ h.rules sessions, r.holds date.weekday second = true := by
  simp [isOpenLocal]

theorem isOpen?_of_local? (hlocal : h.zone.local? t = some (date, second)) :
    h.isOpen? sessions t = some (h.isOpenLocal sessions date second) := by
  simp [isOpen?, hlocal]

/-- A local time is open exactly if its date is no holiday and a rule opened a window on that day or
the day before that holds it. -/
theorem isOpenLocal_iff_covers (hsecond : second < 86400)
    (hclock : ∀ r ∈ h.rules sessions, r.OnClock) :
    h.isOpenLocal sessions date second = true ↔ date ∉ h.holidays ∧
      ∃ r ∈ h.rules sessions, ∃ opened, (opened = date.day ∨ opened = date.day - 1) ∧
        r.Covers opened date.day second := by
  rw [isOpenLocal_iff]
  exact and_congr_right fun _ => exists_congr fun r => and_congr_right fun hr =>
    SessionRule.holds_iff_covers (hclock r hr) hsecond

/-- An instant is open exactly if it is open in the regular or in the extended sessions. -/
theorem isOpen?_both (h : MarketHours) (t : Instant) :
    h.isOpen? .both t =
      Option.map₂ (· || ·) (h.isOpen? .regular t) (h.isOpen? .extended t) := by
  cases hlocal : h.zone.local? t with
  | none => simp [isOpen?, hlocal]
  | some time =>
      simp only [isOpen?_of_local? hlocal, Option.map₂_some_some, isOpenLocal, rules,
        List.any_append, Bool.and_or_distrib_left]

/-- With further rules an instant that is open stays open. -/
theorem isOpen?_of_subset {regular extended : List SessionRule} (hregular : h.regular ⊆ regular)
    (hextended : h.extended ⊆ extended) (hopen : h.isOpen? sessions t = some true) :
    { h with regular, extended }.isOpen? sessions t = some true := by
  have hrules : h.rules sessions ⊆ { h with regular, extended }.rules sessions := by
    cases sessions with
    | regular => exact hregular
    | extended => exact hextended
    | both =>
        rintro r hr
        exact List.mem_append.2 ((List.mem_append.1 hr).imp (@hregular r) (@hextended r))
  obtain ⟨⟨date, second⟩, hlocal, hholds⟩ := Option.map_eq_some_iff.1 hopen
  obtain ⟨hholiday, r, hr, hrule⟩ := isOpenLocal_iff.1 hholds
  rw [isOpen?_of_local? (h := { h with regular, extended }) hlocal,
    (isOpenLocal_iff (h := { h with regular, extended })).2 ⟨hholiday, r, hrules hr, hrule⟩]

/-- A further holiday closes its own local date and leaves every other instant as it was. -/
theorem isOpen?_addHoliday (h : MarketHours) {holiday : Date} {holidays : List Date}
    (hadded : ∀ date, date ∈ holidays ↔ date = holiday ∨ date ∈ h.holidays)
    (sessions : Sessions) (t : Instant) :
    { h with holidays }.isOpen? sessions t =
      if h.localDate? t = some holiday then some false else h.isOpen? sessions t := by
  cases hlocal : h.zone.local? t with
  | none => simp [isOpen?, localDate?, hlocal]
  | some time =>
      obtain ⟨date, second⟩ := time
      have hdate : h.localDate? t = some holiday ↔ date = holiday := by simp [localDate?, hlocal]
      rw [isOpen?_of_local? (h := { h with holidays }) hlocal, isOpen?_of_local? hlocal]
      simp only [hdate, ← apply_ite some, Option.some.injEq]
      rw [Bool.eq_iff_iff, isOpenLocal_iff]
      by_cases heq : date = holiday
      · simp [heq, hadded]
      · rw [if_neg heq, isOpenLocal_iff]
        simp only [hadded, heq, false_or]
        rfl

end MarketHours

/-- An instant with a local date and second is open in some sessions, whose rules keep their times
on the clock, exactly if the date is no holiday and one of the rules opened a window on that date or
the day before that holds the second. All sessions together are open when the regular or the
extended ones are. Further rules close nothing, and a further holiday closes its own local date and
leaves every other instant as it was. -/
theorem MarketHours.open_iff_in_window (h : MarketHours) (t : Instant) :
    (∀ date second, h.zone.local? t = some (date, second) → ∀ sessions,
        (∀ r ∈ h.rules sessions, r.OnClock) →
          ∃ answer, h.isOpen? sessions t = some answer ∧
            (answer = true ↔ date ∉ h.holidays ∧ ∃ r ∈ h.rules sessions,
              ∃ opened, (opened = date.day ∨ opened = date.day - 1) ∧
                r.Covers opened date.day second)) ∧
      h.isOpen? .both t =
        Option.map₂ (· || ·) (h.isOpen? .regular t) (h.isOpen? .extended t) ∧
      (∀ sessions regular extended, h.regular ⊆ regular → h.extended ⊆ extended →
        h.isOpen? sessions t = some true →
          { h with regular, extended }.isOpen? sessions t = some true) ∧
      ∀ sessions holiday holidays,
        (∀ date, date ∈ holidays ↔ date = holiday ∨ date ∈ h.holidays) →
          { h with holidays }.isOpen? sessions t =
            if h.localDate? t = some holiday then some false else h.isOpen? sessions t := by
  refine ⟨?_, h.isOpen?_both t, fun sessions regular extended => isOpen?_of_subset,
    fun sessions holiday holidays hadded => h.isOpen?_addHoliday hadded sessions t⟩
  intro date second hlocal sessions hclock
  exact ⟨_, isOpen?_of_local? hlocal, isOpenLocal_iff_covers (Zone.local?_lt hlocal) hclock⟩

/-- One in the morning of a Sunday is open by the window that a rule for Saturdays opened in the
evening before, and stays open with an empty window beside it. The Sunday is closed if it is a
holiday, and the Saturday being one does not matter. -/
theorem MarketHours.open_iff_in_window_sunday_morning :
    let evening : SessionRule :=
      ⟨#v[false, false, false, false, false, false, true], 79200, 7200⟩
    let empty : SessionRule := ⟨DayMask.weekdays, 3600, 3600⟩
    let h : MarketHours := .regularly .cme .utc [evening] []
    let saturday : Date := { day := 19728 }
    let sunday : Date := { day := 19729 }
    let t : Instant := ⟨19729 * 86400 + 3600, 0, by decide⟩
    evening.OnClock ∧ evening.Covers saturday.day sunday.day 3600 ∧
      h.isOpen? .regular t = some true ∧
      { h with regular := [evening], extended := [empty] }.isOpen? .regular t = some true ∧
      { h with holidays := [sunday] }.isOpen? .regular t = some false ∧
      { h with holidays := [saturday] }.isOpen? .regular t = some true := by
  intro evening empty h saturday sunday t
  have hclock : evening.OnClock := ⟨by decide, by decide⟩
  have hcovers : evening.Covers saturday.day sunday.day 3600 :=
    ⟨by decide, (SessionRule.mem_window_next_day hclock).2 ⟨by decide, by decide⟩⟩
  have hlocal : h.zone.local? t = some (sunday, 3600) := by decide
  obtain ⟨hwindow, -, hrules, hholiday⟩ := h.open_iff_in_window t
  obtain ⟨answer, hanswer, hiff⟩ := hwindow sunday 3600 hlocal .regular
    (fun r hr => by rwa [List.mem_singleton.1 hr])
  obtain rfl : answer = true := hiff.2
    ⟨List.not_mem_nil, evening, List.mem_singleton.2 rfl, saturday.day, .inr rfl, hcovers⟩
  refine ⟨hclock, hcovers, hanswer, hrules .regular [evening] [empty] (fun _ hr => hr)
    (List.nil_subset _) hanswer, ?_, ?_⟩
  · rw [hholiday .regular sunday [sunday] (by simp [h, regularly])]
    rw [if_pos (by simp [localDate?, hlocal])]
  · rw [hholiday .regular saturday [saturday] (by simp [h, regularly]), if_neg, hanswer]
    simp [localDate?, hlocal, saturday, sunday]

end FuturesChains
