import FuturesChains.Calendar.Span
import FuturesChains.Instrument.Symbol

/-!
# Contract filters

A filter universe holds the candidate contracts of a chain on a local date, ordered by expiry and
then by root, each contract once among its neighbours. A contract filter narrows such a universe.
The steps that filters are made of keep the order: they only drop contracts, or ask that the filter
be applied at market open only. A custom filter may return any universe.
-/

namespace FuturesChains

/-- The candidate contracts of a chain, as seen on a local date. -/
structure FilterUniverse where
  contracts : List Symbol
  localDate : Date
  onlyAtMarketOpen : Bool
  deriving DecidableEq

namespace FilterUniverse

/-- The order of candidates: by expiry, none before any, then by root. -/
def inOrder (a b : Symbol) : Bool :=
  (Symbol.compareExpiry a.expiry b.expiry).then (Ord.compare a.id b.id) != .gt

/-- The universe of some contracts: sorted, with equal neighbours merged. -/
def ofContracts (contracts : List Symbol) (localDate : Date) : FilterUniverse :=
  ⟨Symbol.dropRepeats (contracts.mergeSort inOrder), localDate, false⟩

/-- The date some days away; past either end of the calendar, or of the range of spans, the end on
that side. -/
def offsetDate (date : Date) (days : Int) : Date :=
  ((Span.ofDays? days).bind fun span => date.add? span.days).getD
    (if days < 0 then Date.first else Date.last)

/-- Drop the contracts that fail a test. -/
def keep (u : FilterUniverse) (test : Symbol → Bool) : FilterUniverse :=
  { u with contracts := u.contracts.filter test }

/-- Keep the contracts that expire within some days of the local date, both ends included. -/
def expiration (u : FilterUniverse) (minDays maxDays : Int) : FilterUniverse :=
  let low := offsetDate u.localDate minDays
  let high := offsetDate u.localDate maxDays
  u.keep fun s => match s.expiry with
    | some date => low ≤ date && date ≤ high
    | none => false

/-- The expiry of the first contract. -/
def nearest? (u : FilterUniverse) : Option Date := u.contracts.head?.bind (·.expiry)

/-- Keep the contracts of the nearest expiry. -/
def frontMonth (u : FilterUniverse) : FilterUniverse :=
  match u.nearest? with
  | some date => u.keep (·.expiry = some date)
  | none => u

/-- Drop the contracts of the nearest expiry. -/
def backMonths (u : FilterUniverse) : FilterUniverse :=
  match u.nearest? with
  | some date => u.keep (·.expiry ≠ some date)
  | none => u

/-- Ask for the selection to change only while the exchange is open. -/
def atMarketOpen (u : FilterUniverse) : FilterUniverse := { u with onlyAtMarketOpen := true }

end FilterUniverse

/-- A test on single contracts. -/
inductive ContractTest where
  | root (id : String)
  | market (market : Exchange)
  | months (months : List Nat)
  | dated
  | nothing
  | custom (test : Symbol → Bool)

/-- A contract passes a test. -/
def ContractTest.accepts : ContractTest → Symbol → Bool
  | .root id, s => s.id == id
  | .market venue, s => s.market = venue
  | .months wanted, s => match s.expiry with
    | some date => wanted.contains date.month
    | none => false
  | .dated, s => s.expiry.isSome
  | .nothing, _ => false
  | .custom accepted, s => accepted s

/-- One step of a filter. -/
inductive FilterStep where
  | expiration (minDays maxDays : Int)
  | frontMonth
  | backMonths
  | marketOpen
  | contracts (test : ContractTest)
  | replace (symbols : List Symbol)

/-- The universe after a step. -/
def FilterStep.apply (u : FilterUniverse) : FilterStep → FilterUniverse
  | .expiration minDays maxDays => u.expiration minDays maxDays
  | .frontMonth => u.frontMonth
  | .backMonths => u.backMonths
  | .marketOpen => u.atMarketOpen
  | .contracts test => u.keep test.accepts
  | .replace symbols => .ofContracts symbols u.localDate

/-- A function that narrows the contracts of a chain. A filter made of steps keeps the text that it
was written as, by which reports name it. -/
inductive ContractFilter where
  | identity
  | steps (written : String) (sequence : List FilterStep)
  | frontMonth (maxDays : Int)
  | custom (narrow : FilterUniverse → FilterUniverse)

/-- The universe that a filter returns. -/
def ContractFilter.apply : ContractFilter → FilterUniverse → FilterUniverse
  | .identity, u => u
  | .steps _ sequence, u => sequence.foldl FilterStep.apply u
  | .frontMonth maxDays, u => (u.expiration 0 maxDays).frontMonth
  | .custom narrow, u => narrow u

end FuturesChains
