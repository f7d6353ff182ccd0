import FuturesChains.Calendar.Span

/-!
# Bar resolutions

The size of the bars that a data subscription delivers: by time, by a number of ticks, or every
tick or quote on its own. A resolution by time has a span; the others have none.
-/

namespace FuturesChains

/-- The size of a bar. -/
inductive Resolution where
  | ticks
  | quote
  | seconds (count : UInt8)
  | minutes (count : UInt8)
  | hours (count : UInt8)
  | tickBars (count : UInt32)
  | daily
  | weekly
  deriving DecidableEq, Repr

namespace Resolution

/-- The name of a resolution, without its count. -/
def name : Resolution → String
  | ticks => "Ticks"
  | quote => "Quote"
  | seconds _ => "Seconds"
  | minutes _ => "Minutes"
  | hours _ => "Hours"
  | tickBars _ => "TickBars"
  | daily => "Daily"
  | weekly => "Weekly"

/-- The span of one bar. -/
def span? : Resolution → Option Span
  | seconds n => some ⟨n.toNat⟩
  | minutes n => some ⟨n.toNat * 60⟩
  | hours n => some ⟨n.toNat * 3600⟩
  | daily => some ⟨86400⟩
  | weekly => some ⟨604800⟩
  | ticks | quote | tickBars _ => none

end Resolution

end FuturesChains
