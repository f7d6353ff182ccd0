import FuturesChains.Halt
import FuturesChains.Market.Metadata
import FuturesChains.Number.Decimal

/-!
# Instrument properties

The static facts of an instrument: its description, contract multiplier, tick and lot size, quote
currency and venue ticker. An entry is resolved against the account currency, which is the quote
currency of an entry that names none. The value of a tick is the tick size times the multiplier.
-/

namespace FuturesChains

/-- One row of the property table. No quote currency stands for the account currency. -/
structure PropertyEntry where
  description : String
  quoteCurrency : Option Currency
  multiplier : Decimal
  tickSize : Decimal
  lotSize : Decimal
  marketTicker : Option String
  deriving DecidableEq

/-- The facts of an instrument for one account. -/
structure Properties where
  description : String
  quoteCurrency : Currency
  multiplier : Decimal
  tickSize : Decimal
  valuePerTick : Decimal
  lotSize : Decimal
  marketTicker : Option String
  deriving DecidableEq

/-- The facts of a row for an account currency, if the value of a tick is a decimal. -/
def PropertyEntry.resolve? (e : PropertyEntry) (account : Currency) : Option Properties :=
  (e.tickSize.mul? e.multiplier).map fun value =>
    { description := e.description
      quoteCurrency := e.quoteCurrency.getD account
      multiplier := e.multiplier
      tickSize := e.tickSize
      valuePerTick := value.normalize
      lotSize := e.lotSize
      marketTicker := e.marketTicker }

/-- Instrument properties by market, kind and root. -/
abbrev PropertyTable := MetadataTable PropertyEntry

/-- The properties of a symbol on a market for an account currency. -/
def PropertyTable.properties (t : PropertyTable) (market : Exchange) (s : Symbol) (kind : Kind)
    (account : Currency) : Except Halt (Except MetadataError Properties) :=
  match t.lookup? market s kind with
  | none => .ok (.error (.unknownProperties market s kind))
  | some entry => (Halt.productTooLarge.orStop (entry.resolve? account)).map .ok

end FuturesChains
