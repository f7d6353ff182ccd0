import FuturesChains.Engine.Resolution
import FuturesChains.Market.Properties
import FuturesChains.Wire.Value

/-!
# Document records

The document forms of symbols, resolutions, session rules, property entries and the closed sets of
codes. Fields that are not known are passed over, and an optional field may be missing.
-/

namespace FuturesChains.Wire

open Value

/-- The document form of a kind. -/
def ofKind (k : Kind) : Value := .text k.name

/-- The document form of an exchange. -/
def ofExchange (e : Exchange) : Value := .text e.name

/-- The document form of a currency. -/
def ofCurrency (c : Currency) : Value := .text c.name

/-- Read a kind. -/
def kind? : Value → Option Kind := asName? Kind.ofName?

/-- Read an exchange. -/
def exchange? : Value → Option Exchange := asName? Exchange.ofName?

/-- Read a currency. -/
def currency? : Value → Option Currency := asName? Currency.ofName?

/-- Read a date. -/
def date? (value : Value) : Option Date := value.asText?.bind Date.ofText?

/-- The document form of a symbol. -/
def ofSymbol (s : Symbol) : Value :=
  .record
    [("id", .text s.id), ("security_type", ofKind s.kind), ("market", ofExchange s.market),
      ("expiry", .ofOption (s.expiry.map fun date => .text date.toText))]

/-- Read a symbol. -/
def symbol? (value : Value) : Option Symbol :=
  match value.asFields? ["id", "security_type", "market", "expiry"] with
  | some [id, kind, market, expiry] => do
    return ⟨← id.asText?, ← kind? kind, ← exchange? market, ← expiry.asOption? date?⟩
  | _ => none

/-- The document form of a resolution: its name, or a record of its name and its count. -/
def ofResolution (r : Resolution) : Value :=
  match r with
  | .seconds n | .minutes n | .hours n => .record [(r.name, .ofNat n.toNat)]
  | .tickBars n => .record [(r.name, .ofNat n.toNat)]
  | .ticks | .quote | .daily | .weekly => .text r.name

/-- The resolutions without a count, by name. -/
def plainResolution? (name : String) : Option Resolution :=
  [Resolution.ticks, .quote, .daily, .weekly].find? (·.name == name)

/-- Read a resolution. -/
def resolution? (value : Value) : Option Resolution :=
  match value.asCase? with
  | some (name, none) => plainResolution? name
  | some (name, some .null) => plainResolution? name
  | some ("Seconds", some count) => (count.asNat? 256).map fun n => .seconds n.toUInt8
  | some ("Minutes", some count) => (count.asNat? 256).map fun n => .minutes n.toUInt8
  | some ("Hours", some count) => (count.asNat? 256).map fun n => .hours n.toUInt8
  | some ("TickBars", some count) => (count.asNat? (twoTo 32)).map fun n => .tickBars n.toUInt32
  | _ => none

/-- The document form of a session rule. -/
def ofSessionRule (r : SessionRule) : Value :=
  .record
    [("days", .list (r.days.toList.map .bool)), ("open_ssm", .ofNat r.opens),
      ("close_ssm", .ofNat r.closes)]

/-- Read a choice of days of the week. -/
def dayMask? (value : Value) : Option DayMask := do
  let days ← (← value.asList?).mapM asBool?
  match days with
  | [sun, mon, tue, wed, thu, fri, sat] => return #v[sun, mon, tue, wed, thu, fri, sat]
  | _ => none

/-- Read a session rule. -/
def sessionRule? (value : Value) : Option SessionRule :=
  match value.asFields? ["days", "open_ssm", "close_ssm"] with
  | some [days, opens, closes] => do
    return ⟨← dayMask? days, ← opens.asNat? (twoTo 32), ← closes.asNat? (twoTo 32)⟩
  | _ => none

/-- The document form of a decimal. -/
def ofDecimal (d : Decimal) : Value := .text d.toText

/-- The document form of a property entry. -/
def ofPropertyEntry (e : PropertyEntry) : Value :=
  .record
    [("description", .text e.description),
      ("quote_ccy", .ofOption (e.quoteCurrency.map ofCurrency)),
      ("contract_multiplier", ofDecimal e.multiplier), ("tick_size", ofDecimal e.tickSize),
      ("lot_size", ofDecimal e.lotSize), ("market_ticker", .ofOption (e.marketTicker.map .text))]

/-- Read a property entry. -/
def propertyEntry? (value : Value) : Option PropertyEntry :=
  let names :=
    ["description", "quote_ccy", "contract_multiplier", "tick_size", "lot_size", "market_ticker"]
  match value.asFields? names with
  | some [description, quoteCurrency, multiplier, tickSize, lotSize, marketTicker] => do
    return {
      description := ← description.asText?
      quoteCurrency := ← quoteCurrency.asOption? currency?
      multiplier := ← multiplier.asDecimal?
      tickSize := ← tickSize.asDecimal?
      lotSize := ← lotSize.asDecimal?
      marketTicker := ← marketTicker.asOption? asText? }
  | _ => none

end FuturesChains.Wire
