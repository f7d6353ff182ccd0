/-!
# Spans of time

A duration is a signed number of nanoseconds. A span is one of whole seconds. `ofSeconds?`,
`ofMinutes?` and `ofDays?` check the range: a span, counted in milliseconds, fits in a signed 64-bit
integer.
-/

namespace FuturesChains

/-- A signed number of whole seconds. -/
structure Span where
  seconds : Int
  deriving DecidableEq, Repr

namespace Span

/-- The largest number of milliseconds of a span that is made from a count. -/
def maxMilliseconds : Int := 9223372036854775807

/-- A span of some seconds, if it is in range. -/
def ofSeconds? (seconds : Int) : Option Span :=
  if -maxMilliseconds ≤ seconds * 1000 ∧ seconds * 1000 ≤ maxMilliseconds then some ⟨seconds⟩
  else none

/-- A span of some minutes, if it is in range. -/
def ofMinutes? (minutes : Int) : Option Span := ofSeconds? (minutes * 60)

/-- A span of some days, if it is in range. -/
def ofDays? (days : Int) : Option Span := ofSeconds? (days * 86400)

/-- The whole minutes of a span, rounded towards zero. -/
def minutes (s : Span) : Int := s.seconds.tdiv 60

/-- The whole days of a span, rounded towards zero. -/
def days (s : Span) : Int := s.seconds.tdiv 86400

theorem seconds_ofSeconds? {n : Int} {s : Span} (h : ofSeconds? n = some s) : s.seconds = n := by
  unfold ofSeconds? at h
  split at h
  · obtain rfl := Option.some.inj h
    rfl
  · cases h

/-- A span of days that is in range holds that many days. -/
theorem days_ofDays? {n : Int} {s : Span} (h : ofDays? n = some s) : s.days = n := by
  unfold days
  rw [seconds_ofSeconds? h]
  exact Int.mul_tdiv_cancel n (by decide)

end Span

/-- A signed number of nanoseconds. -/
structure Duration where
  nanos : Int
  deriving DecidableEq, Repr

/-- A span is a duration. -/
instance : Coe Span Duration := ⟨fun s => ⟨s.seconds * 1000000000⟩⟩

namespace Duration

/-- The whole seconds of a duration, rounded towards zero. -/
def span (d : Duration) : Span := ⟨d.nanos.tdiv 1000000000⟩

/-- The nanoseconds beside the whole seconds, with the sign of the duration. -/
def subsecond (d : Duration) : Int := d.nanos.tmod 1000000000

/-- A duration is its whole seconds and the nanoseconds beside them. -/
theorem nanos_eq (d : Duration) : d.nanos = d.span.seconds * 1000000000 + d.subsecond := by
  rw [Int.mul_comm]
  exact (Int.mul_tdiv_add_tmod d.nanos 1000000000).symm

/-- Both parts of a duration that is not negative are not negative. -/
theorem parts_nonneg {d : Duration} (h : 0 ≤ d.nanos) : 0 ≤ d.span.seconds ∧ 0 ≤ d.subsecond :=
  ⟨Int.tdiv_nonneg h (by decide), Int.tmod_nonneg _ h⟩

end Duration

end FuturesChains
