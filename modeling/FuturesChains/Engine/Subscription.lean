import FuturesChains.Calendar.Zone
import FuturesChains.Engine.Resolution
import FuturesChains.Instrument.Symbol

/-!
# Data subscriptions

The table of data subscriptions. A subscription is identified by its symbol and resolution: adding
one that is there already returns the first one unchanged. The main statements are `add_of_find?`
and `add_of_find?_eq_none`, the two outcomes of an addition.
-/

namespace FuturesChains

/-- The data subscription of a security. The span of one bar is kept with the resolution that it
comes from. -/
structure Subscription where
  symbol : Symbol
  resolution : Resolution
  increment? : Option Span := resolution.span?
  dataZone : Zone
  exchangeZone : Zone
  fillForward : Bool
  extendedMarketHours : Bool
  internalFeed : Bool
  customData : Bool
  filtered : Bool

/-- Two subscriptions are for the same data. -/
def Subscription.sameData (a b : Subscription) : Bool :=
  a.symbol = b.symbol && a.resolution = b.resolution

/-- The subscriptions in the order in which they were added. -/
abbrev SubscriptionTable := List Subscription

namespace SubscriptionTable

/-- Add a subscription unless there is one for the same data; the answer is the one that is kept. -/
def add (t : SubscriptionTable) (s : Subscription) : Subscription × SubscriptionTable :=
  match List.find? s.sameData t with
  | some kept => (kept, t)
  | none => (s, t ++ [s])

/-- The subscriptions of a symbol. -/
def ofSymbol (t : SubscriptionTable) (symbol : Symbol) : List Subscription :=
  List.filter (·.symbol = symbol) t

/-- A subscription for the same data is returned and the table stays as it is. -/
theorem add_of_find? {t : SubscriptionTable} {s kept : Subscription}
    (h : List.find? s.sameData t = some kept) : t.add s = (kept, t) := by
  simp [add, h]

/-- A new subscription goes to the end of the table. -/
theorem add_of_find?_eq_none {t : SubscriptionTable} {s : Subscription}
    (h : List.find? s.sameData t = none) : t.add s = (s, t ++ [s]) := by
  simp [add, h]

end SubscriptionTable

end FuturesChains
