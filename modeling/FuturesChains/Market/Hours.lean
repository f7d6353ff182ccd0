import FuturesChains.Calendar.Zone
import FuturesChains.Instrument.Code

/-!
# Trading hours

A session rule is a window of local time on some days of the week; a window whose opening is later
than its closing runs past midnight into the next day. The hours of an exchange are its regular and
its extended rules, its time zone and its holidays. An instant is open when its local date is no
holiday and some rule of the wanted sessions holds it. There is no answer for an instant whose local
date lies outside the calendar.
-/

namespace FuturesChains

/-- A choice of days of the week, Sunday first. -/
abbrev DayMask := Vector Bool 7

/-- Monday to Friday. -/
def DayMask.weekdays : DayMask := #v[false, true, true, true, true, true, false]

/-- Sunday to Thursday: the evenings on which overnight sessions open. -/
def DayMask.sundayToThursday : DayMask := #v[true, true, true, true, true, false, false]

/-- One trading window, in seconds since local midnight. -/
structure SessionRule where
  days : DayMask
  opens : Nat
  closes : Nat
  deriving DecidableEq

namespace SessionRule

/-- The seconds of some hours and minutes. -/
def clockSeconds (clock : Nat × Nat) : Nat := clock.1 * 3600 + clock.2 * 60

/-- A rule from hours and minutes. -/
def ofClock (days : DayMask) (opens closes : Nat × Nat) : SessionRule :=
  ⟨days, clockSeconds opens, clockSeconds closes⟩

/-- A rule from any hours and minutes; there is none if their seconds do not fit in 32 bits. -/
def ofClock? (days : DayMask) (opens closes : Nat × Nat) : Option SessionRule :=
  if clockSeconds opens < twoTo 32 ∧ clockSeconds closes < twoTo 32 then
    some (ofClock days opens closes)
  else none

/-- The window runs past midnight. -/
def wraps (r : SessionRule) : Bool := r.closes < r.opens

/-- The window holds a second of a day of the week. -/
def holds (r : SessionRule) (weekday : Fin 7) (second : Nat) : Bool :=
  -- the morning part of a window belongs to the day before
  if r.wraps then
    (r.days[weekday] && r.opens ≤ second) || (r.days[weekday - 1] && second < r.closes)
  else r.days[weekday] && r.opens ≤ second && second < r.closes

end SessionRule

/-- The sessions that a question about hours is about. -/
inductive Sessions where
  | regular
  | extended
  | both
  deriving DecidableEq, Repr

/-- The trading hours of an exchange. -/
structure MarketHours where
  exchange : Exchange
  zone : Zone
  regular : List SessionRule
  extended : List SessionRule
  holidays : List Date

namespace MarketHours

/-- The rules of some sessions. -/
def rules (h : MarketHours) : Sessions → List SessionRule
  | .regular => h.regular
  | .extended => h.extended
  | .both => h.regular ++ h.extended

/-- Trading is open at a local date and second of the day. -/
def isOpenLocal (h : MarketHours) (sessions : Sessions) (date : Date) (second : Nat) : Bool :=
  !h.holidays.contains date && (h.rules sessions).any (·.holds date.weekday second)

/-- Trading is open at an instant. -/
def isOpen? (h : MarketHours) (sessions : Sessions) (t : Instant) : Option Bool :=
  (h.zone.local? t).map fun (date, second) => h.isOpenLocal sessions date second

/-- The local date of an instant. -/
def localDate? (h : MarketHours) (t : Instant) : Option Date :=
  (h.zone.local? t).map (·.1)

/-- Hours without holidays. -/
def regularly (exchange : Exchange) (zone : Zone) (regular extended : List SessionRule) :
    MarketHours :=
  ⟨exchange, zone, regular, extended, []⟩

/-- The usual trading hours of an exchange's futures. -/
def ofExchange (exchange : Exchange) : MarketHours :=
  let week := DayMask.weekdays
  let evenings := DayMask.sundayToThursday
  match exchange with
  | .cme | .globex | .cfe =>
    regularly exchange .usCentral
      [.ofClock week (8, 30) (15, 15)]
      [.ofClock evenings (17, 0) (8, 30), .ofClock week (15, 30) (16, 0)]
  | .cbot =>
    regularly exchange .usCentral
      [.ofClock week (8, 30) (13, 20)]
      [.ofClock evenings (19, 0) (7, 45)]
  | .nymex | .comex =>
    regularly exchange .usCentral [] [.ofClock evenings (17, 0) (16, 0)]
  | .eurex => regularly exchange .berlin [.ofClock week (1, 10) (22, 0)] []
  | .iceus => regularly exchange .newYork [.ofClock evenings (20, 0) (18, 0)] []
  | .iceeu => regularly exchange .london [.ofClock week (1, 0) (23, 0)] []
  | .sgx =>
    regularly exchange .singapore
      [.ofClock week (8, 15) (18, 0)]
      [.ofClock week (18, 40) (5, 15)]

/-- Whether there is an answer depends on the zone and the instant alone. -/
theorem isSome_isOpen? (h : MarketHours) (sessions : Sessions) (t : Instant) :
    (h.isOpen? sessions t).isSome = (h.localDate? t).isSome := by
  simp [isOpen?, localDate?]

end MarketHours

end FuturesChains
