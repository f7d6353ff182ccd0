import FuturesChains.Selection.Model

/-!
# Front month selection

The trading of a fixed set of chains by their nearest contract: the listing of monthly contracts,
the model that keeps the chains in force and narrows each to its front month, and the properties of
the contracts that are traded.
-/

namespace FuturesChains

/-- A month of a year. -/
structure YearMonth where
  year : Int
  month : Nat
  deriving DecidableEq, Repr

namespace YearMonth

/-- The month of a date. -/
def ofDate (d : Date) : YearMonth := ⟨d.year, d.month⟩

/-- The next month; January follows December. -/
def next (m : YearMonth) : YearMonth :=
  if m.month = 12 then ⟨m.year + 1, 1⟩ else ⟨m.year, m.month + 1⟩

/-- The first day of a month, if the calendar has it. -/
def firstDay? (m : YearMonth) : Option Date := Date.ofCivil? ⟨m.year, m.month, 1⟩

end YearMonth

/-- The contracts of a chain for some months from one on, those the calendar has. -/
def listFrom (chain : Symbol) (month : YearMonth) : Nat → List Symbol
  | 0 => []
  | count + 1 =>
    match month.firstDay? with
    | some date => .future chain.id chain.market date :: listFrom chain month.next count
    | none => listFrom chain month.next count

/-- The monthly contracts of a chain from the month of a date on, each dated on the first of its
month. A listing is as long as it is asked to be: that a program has no room for a list of thousands
of millions of contracts is not modelled. -/
def monthlyListing (chain : Symbol) (start : Date) (count : Nat) : List Symbol :=
  listFrom chain (.ofDate start) count

/-- The model that keeps some chains in force and selects the nearest contract of each within some
days. -/
def frontMonthModel (chains : List Symbol) (interval : Duration) (maxDays : Int) :
    SelectionModel :=
  { SelectionModel.ofSelector interval (.standing chains) with filter := .frontMonth maxDays }

/-- A row of the property table for a contract quoted in dollars and traded one at a time. -/
def contractSpec (description : String) (multiplier tickSize : Decimal) : PropertyEntry :=
  { description
    quoteCurrency := some .usd
    multiplier
    tickSize
    lotSize := .one
    marketTicker := none }

/-- The properties of the traded contracts. -/
def contractSpecs : PropertyTable :=
  let rows : List (Exchange × String × PropertyEntry) :=
    [(.nymex, "CL", contractSpec "Crude Oil WTI" (.ofUnits 1000 0) (.ofUnits 1 2)),
      (.nymex, "NG", contractSpec "Henry Hub Natural Gas" (.ofUnits 10000 0) (.ofUnits 1 3)),
      (.nymex, "RB", contractSpec "RBOB Gasoline" (.ofUnits 42000 0) (.ofUnits 1 4)),
      (.comex, "GC", contractSpec "Gold" (.ofUnits 100 0) (.ofUnits 1 1)),
      (.cme, "ES", contractSpec "E-mini S&P 500" (.ofUnits 50 0) (.ofUnits 25 2)),
      (.cme, "NQ", contractSpec "E-mini Nasdaq-100" (.ofUnits 20 0) (.ofUnits 25 2)),
      (.cbot, "ZN", contractSpec "10-Year T-Note" (.ofUnits 1000 0) (.ofUnits 15625 6))]
  rows.foldl (fun (table : PropertyTable) (market, root, entry) =>
    table.insert market (some root) .future entry) MetadataTable.empty

/-- A month's successor is a month. -/
theorem YearMonth.next_month {m : YearMonth} (h : 1 ≤ m.month ∧ m.month ≤ 12) :
    1 ≤ m.next.month ∧ m.next.month ≤ 12 := by
  by_cases hlast : m.month = 12
  · simp [next, hlast]
  · simp only [next, hlast, if_false]
    omega

end FuturesChains
