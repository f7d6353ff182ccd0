import FuturesChains.Calendar.Date
import FuturesChains.Calendar.Span

/-!
# Instants

An instant is a second of universal time together with nanoseconds. A count of a thousand million
nanoseconds or more lies in a leap second, which shares the number of the second before it. Adding
a duration leaves a leap second the way a clock does: forwards it counts as the second before, and
backwards as the second after. The main statements are `add?_nanos`, for instants outside leap
seconds, and `advance_eq_latest`, for a sum that the calendar does not reach.
-/

namespace FuturesChains

/-- The number of seconds in a day. -/
def secondsPerDay : Int := 86400

/-- The first second of the calendar. -/
def Instant.firstSecond : Int := Date.firstDay * secondsPerDay

/-- The last second of the calendar. -/
def Instant.lastSecond : Int := Date.lastDay * secondsPerDay + (secondsPerDay - 1)

/-- The nanoseconds of a second. -/
def Instant.nanosPerSecond : Nat := 1000000000

/-- A second and nanoseconds name an instant of the calendar. The last second has no leap second
behind it. -/
def Instant.InRange (second : Int) (nano : Nat) : Prop :=
  Instant.firstSecond ≤ second ∧ second ≤ Instant.lastSecond ∧ nano < 2 * Instant.nanosPerSecond ∧
    (second = Instant.lastSecond → nano < Instant.nanosPerSecond)

/-- The range check is a few comparisons. -/
instance (second : Int) (nano : Nat) : Decidable (Instant.InRange second nano) :=
  inferInstanceAs (Decidable (_ ∧ _))

/-- A point of universal time: seconds since 1970-01-01T00:00:00Z and nanoseconds. -/
structure Instant where
  second : Int
  nano : Nat
  inRange : Instant.InRange second nano
  deriving DecidableEq

namespace Instant

/-- The first instant. -/
def earliest : Instant := ⟨firstSecond, 0, by decide⟩

/-- The last instant, a nanosecond before the end of the calendar. -/
def latest : Instant := ⟨lastSecond, 999999999, by decide⟩

instance : Inhabited Instant := ⟨⟨0, 0, by decide⟩⟩

/-- Instants are ordered by seconds, then by nanoseconds. -/
instance : LE Instant := ⟨fun a b => a.second < b.second ∨ a.second = b.second ∧ a.nano ≤ b.nano⟩

instance : LT Instant := ⟨fun a b => a.second < b.second ∨ a.second = b.second ∧ a.nano < b.nano⟩

instance (a b : Instant) : Decidable (a ≤ b) :=
  inferInstanceAs (Decidable (a.second < b.second ∨ a.second = b.second ∧ a.nano ≤ b.nano))

instance (a b : Instant) : Decidable (a < b) :=
  inferInstanceAs (Decidable (a.second < b.second ∨ a.second = b.second ∧ a.nano < b.nano))

theorem le_iff {a b : Instant} :
    a ≤ b ↔ a.second < b.second ∨ a.second = b.second ∧ a.nano ≤ b.nano := Iff.rfl

theorem lt_iff {a b : Instant} :
    a < b ↔ a.second < b.second ∨ a.second = b.second ∧ a.nano < b.nano := Iff.rfl

/-- The instant at a second and nanoseconds, if the calendar has it. -/
def ofParts? (second : Int) (nano : Nat) : Option Instant :=
  if h : InRange second nano then some ⟨second, nano, h⟩ else none

/-- The instant at the start of a second, if the calendar has it. -/
def ofSecond? (second : Int) : Option Instant := ofParts? second 0

/-- The instant lies in a leap second. -/
def isLeap (t : Instant) : Bool := nanosPerSecond ≤ t.nano

/-- The instant some nanoseconds after the start of 1970, if the calendar has it. -/
def ofNanos? (nanos : Int) : Option Instant :=
  ofParts? (nanos / nanosPerSecond) (nanos % nanosPerSecond).toNat

/-- The nanoseconds of an instant since the start of 1970, those of a leap second counted on. -/
def nanos (t : Instant) : Int := t.second * nanosPerSecond + t.nano

/-- The instant a duration later, if the calendar reaches it. -/
def add? (t : Instant) (d : Duration) : Option Instant :=
  if t.isLeap then
    -- leaving a leap second forwards, it counts as the second it is numbered with
    if 0 < d.span.seconds ∨ 0 < d.subsecond ∧ 2 * nanosPerSecond ≤ t.nano + d.subsecond then
      ofNanos? (t.nanos - nanosPerSecond + d.nanos)
    else if d.span.seconds < 0 then ofNanos? (t.nanos + d.nanos)
    -- a fraction of a second that does not leave it moves within it
    else ofParts? t.second (t.nano + d.subsecond).toNat
  else ofNanos? (t.nanos + d.nanos)

/-- The instant a duration later, or the last instant if the calendar does not reach it. -/
def advance (t : Instant) (d : Duration) : Instant := (t.add? d).getD latest

/-- The date of an instant in universal time. -/
def utcDay (t : Instant) : Int := t.second / secondsPerDay

/-- Nanoseconds as decimal places: none for a whole second, else as many groups of three digits as
are needed. -/
def fractionText (nano : Nat) : String :=
  if nano = 0 then ""
  else if nano % 1000000 = 0 then "." ++ String.ofList (Decimal.padDigits 3 (nano / 1000000))
  else if nano % 1000 = 0 then "." ++ String.ofList (Decimal.padDigits 6 (nano / 1000))
  else "." ++ String.ofList (Decimal.padDigits 9 nano)

/-- The text of an instant: date, time of day and `UTC`; a leap second is second 60. -/
def toText (t : Instant) : String :=
  let c := Calendar.civil t.utcDay
  let ofDay := (t.second % secondsPerDay).toNat
  let second := ofDay % 60 + if t.isLeap then 1 else 0
  let nano := if t.isLeap then t.nano - nanosPerSecond else t.nano
  Date.yearText c.year ++ "-" ++ Date.twoDigits c.month ++ "-" ++ Date.twoDigits c.day ++ " "
    ++ Date.twoDigits (ofDay / 3600) ++ ":" ++ Date.twoDigits (ofDay / 60 % 60) ++ ":"
    ++ Date.twoDigits second ++ fractionText nano ++ " UTC"

theorem ofParts?_eq_some_iff {second : Int} {nano : Nat} {t : Instant} :
    ofParts? second nano = some t ↔ t.second = second ∧ t.nano = nano := by
  constructor
  · intro h
    unfold ofParts? at h
    split at h
    · obtain rfl := Option.some.inj h
      exact ⟨rfl, rfl⟩
    · cases h
  · rintro ⟨rfl, rfl⟩
    simp [ofParts?, t.inRange]

/-- The instant some nanoseconds after the start of 1970 is no leap second and has as many. -/
theorem of_ofNanos? {n : Int} {t : Instant} (h : ofNanos? n = some t) :
    t.nanos = n ∧ t.isLeap = false := by
  obtain ⟨hsecond, hnano⟩ := ofParts?_eq_some_iff.1 h
  have hmod := Int.emod_nonneg n (show (nanosPerSecond : Int) ≠ 0 by decide)
  have hlt := Int.emod_lt_of_pos n (show (0 : Int) < nanosPerSecond by decide)
  have hdiv := Int.mul_ediv_add_emod n nanosPerSecond
  have hnano : (t.nano : Int) = n % nanosPerSecond := by omega
  constructor
  · rw [nanos, hsecond, hnano, Int.mul_comm]
    exact hdiv
  · simp only [isLeap, decide_eq_false_iff_not]
    omega

/-- Outside leap seconds a duration adds its nanoseconds, and the sum is no leap second. -/
theorem add?_nanos {t u : Instant} {d : Duration} (hleap : t.isLeap = false)
    (h : t.add? d = some u) : u.nanos = t.nanos + d.nanos ∧ u.isLeap = false := by
  unfold add? at h
  rw [hleap] at h
  exact of_ofNanos? h

/-- A sum out of reach is the last instant. -/
theorem advance_eq_latest {t : Instant} {d : Duration} (h : t.add? d = none) :
    t.advance d = latest := by
  simp [advance, h]

theorem advance_of_add? {t u : Instant} {d : Duration} (h : t.add? d = some u) :
    t.advance d = u := by
  simp [advance, h]

/-- A positive duration leads to a later instant. -/
theorem lt_of_add? {t u : Instant} {d : Duration} (hd : 0 < d.nanos)
    (h : t.add? d = some u) : t < u := by
  have hsplit := d.nanos_eq
  obtain ⟨hspan, hsubsecond⟩ := Duration.parts_nonneg (Int.le_of_lt hd)
  unfold add? at h
  split at h
  · rename_i hleap
    have hleap := of_decide_eq_true hleap
    split at h
    · obtain ⟨hnanos, hu⟩ := of_ofNanos? h
      have hu := of_decide_eq_false hu
      simp only [nanos, nanosPerSecond] at *
      exact Or.inl (by omega)
    · split at h
      · omega
      · obtain ⟨hsecond, hnano⟩ := ofParts?_eq_some_iff.1 h
        exact Or.inr ⟨hsecond.symm, by omega⟩
  · obtain ⟨hnanos, hu⟩ := of_ofNanos? h
    have hu := of_decide_eq_false hu
    simp only [nanos, nanosPerSecond] at *
    rw [lt_iff]
    omega

/-- An instant outside leap seconds has no more nanoseconds than those that are not before it. -/
theorem nanos_le {t u : Instant} (hleap : t.isLeap = false) (h : t ≤ u) : t.nanos ≤ u.nanos := by
  have hnano := of_decide_eq_false hleap
  simp only [nanos, nanosPerSecond] at *
  rw [le_iff] at h
  omega

/-- No instant is before the first one. -/
theorem earliest_le (t : Instant) : earliest ≤ t := by
  obtain ⟨hfirst, _⟩ := t.inRange
  rw [le_iff]
  simp only [earliest]
  omega

/-- No instant is after the last one. -/
theorem le_latest (t : Instant) : t ≤ latest := by
  obtain ⟨_, hlast, _, hnano⟩ := t.inRange
  rcases Int.lt_or_eq_of_le hlast with h | h
  · exact Or.inl h
  · have := hnano h
    refine Or.inr ⟨h, ?_⟩
    simp only [latest, nanosPerSecond] at *
    omega

end Instant

end FuturesChains
