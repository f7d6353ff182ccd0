import FuturesChains.Selection.Model

/-!
# Chain universes

A chain universe is one chain's unit of work: the shared security of the chain, and the settings and
initializer that it was resolved with. Its selection gives the unexpired contracts of the chain
to the filter that is attached to the security; a filter that asks for market open leaves the
selection undecided while the exchange is closed.
-/

namespace FuturesChains

/-- The universe of one chain. -/
structure ChainUniverse where
  chain : Symbol
  security : SecurityId
  settings : UniverseSettings
  initializer : Initializer

/-- Why a symbol gave no chain universe. -/
inductive SelectionError where
  | invalidKind (symbol : Symbol)
  | metadata (error : MetadataError)
  | construction (error : ConstructionError)
  deriving DecidableEq

/-- The wording for a failed selection. -/
def SelectionError.message : SelectionError → String
  | .invalidKind symbol =>
    "universe selection returned " ++ symbol.toText ++ " of kind " ++ symbol.kind.name
      ++ ", expected " ++ Kind.future.name
  | .metadata error => error.message
  | .construction error => "security construction failed: " ++ error.message

/-- The symbol is an unexpired contract of the chain on a local date. -/
def isLiveContract (chain : Symbol) (today : Date) (s : Symbol) : Bool :=
  s.toCanonical = chain && match s.expiry with
    | some date => today ≤ date
    | none => false

/-- The contracts that a security's filter selects from some that are available, or none when the
filter waits for market open. -/
def Security.select (s : Security) (now : Instant) (available : List Symbol) :
    Except Halt (Option (List Symbol)) := do
  let today ← Halt.localTimeOutOfRange.orStop (s.hours.localDate? now)
  let candidates := available.filter (isLiveContract s.symbol today)
  let selected := s.filter.apply (.ofContracts candidates today)
  -- the hours have an answer whenever the local date has one
  let isOpen ← Halt.localTimeOutOfRange.orStop (s.hours.isOpen? .both now)
  return if selected.onlyAtMarketOpen && !isOpen then none else some selected.contracts

/-- The contracts that a universe selects. The universe's security is in the registry that made the
universe; with any other registry there may be nothing to select. -/
def ChainUniverse.select (u : ChainUniverse) (r : Registry) (now : Instant)
    (available : List Symbol) : Except Halt (Option (List Symbol)) :=
  match r.security? u.security with
  | some security => security.select now available
  | none => .ok none

end FuturesChains
