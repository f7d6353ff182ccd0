import FuturesChains.Engine.Subscription
import FuturesChains.Instrument.ContractFilter
import FuturesChains.Market.Properties

/-!
# Securities

A security joins the facts of an instrument, its trading hours and the data subscription that it
was made with to three things that change: whether it may be traded, its leverage and its contract
filter. An initializer is a sequence of such changes, run once on every new security.
-/

namespace FuturesChains

/-- An instrument as the engine holds it. -/
structure Security where
  symbol : Symbol
  properties : Properties
  hours : MarketHours
  dataZone : Zone
  subscription : Subscription
  tradable : Bool
  leverage : Decimal
  filter : ContractFilter

/-- One change of a security. -/
inductive SecurityChange where
  | tradable (value : Bool)
  | leverage (value : Decimal)
  | filter (value : ContractFilter)

/-- Changes that every new security undergoes, in order. -/
abbrev Initializer := List SecurityChange

namespace Security

/-- The security after a change. -/
def change (s : Security) : SecurityChange → Security
  | .tradable value => { s with tradable := value }
  | .leverage value => { s with leverage := value }
  | .filter value => { s with filter := value }

/-- The security after the changes of an initializer. -/
def run (s : Security) (changes : Initializer) : Security := changes.foldl change s

/-- A security as it is assembled: tradable, at leverage one, with the identity filter. -/
def assembled (symbol : Symbol) (properties : Properties) (hours : MarketHours) (dataZone : Zone)
    (subscription : Subscription) : Security :=
  { symbol, properties, hours, dataZone, subscription
    tradable := true
    leverage := Decimal.one
    filter := .identity }

/-- An initializer leaves the facts of a security alone. -/
theorem facts_run (s : Security) (changes : Initializer) :
    (s.run changes).symbol = s.symbol ∧ (s.run changes).properties = s.properties ∧
      (s.run changes).hours = s.hours ∧ (s.run changes).dataZone = s.dataZone ∧
      (s.run changes).subscription = s.subscription := by
  induction changes generalizing s with
  | nil => simp [run]
  | cons c rest ih =>
    have := ih (s.change c)
    cases c <;> simpa [run, change] using this

end Security

end FuturesChains
