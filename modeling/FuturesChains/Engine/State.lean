import FuturesChains.Engine.Construction
import FuturesChains.Engine.Settings

/-!
# The engine

The state that selection works on. The facilities stay the same for the whole run: metadata tables,
account currency, mode and construction service. The registry, the subscriptions, the count of
construction calls, the defaults and the clock change.
-/

namespace FuturesChains

/-- What an engine is set up with. -/
structure Facilities where
  hours : HoursTable
  properties : PropertyTable
  account : Currency
  live : Bool
  service : ConstructionService

/-- How often the construction service was called, and how often it built a security. -/
structure ConstructionTally where
  calls : Nat
  built : Nat
  deriving DecidableEq

/-- The state of an engine. -/
structure Engine where
  facilities : Facilities
  registry : Registry
  subscriptions : SubscriptionTable
  tally : ConstructionTally
  defaults : EngineDefaults
  clock : Instant

/-- How often construction was asked for, and how many securities are registered. -/
structure EngineCounts where
  calls : Nat
  securities : Nat
  deriving DecidableEq

namespace Engine

/-- The counts of an engine. -/
def counts (e : Engine) : EngineCounts := ⟨e.tally.calls, e.registry.size⟩

/-- A fresh engine with its clock at an instant. -/
def start (facilities : Facilities) (clock : Instant) : Engine :=
  { facilities
    registry := .empty
    subscriptions := []
    tally := ⟨0, 0⟩
    defaults := .standard
    clock }

/-- Set the clock. -/
def setClock (e : Engine) (t : Instant) : Engine := { e with clock := t }

/-- Move the clock by a duration; past the end of the calendar it stands at the last instant. -/
def advance (e : Engine) (d : Duration) : Engine := { e with clock := e.clock.advance d }

/-- The settings for universes whose model has none, from the next refresh on. -/
def setDefaultSettings (e : Engine) (settings : UniverseSettings) : Engine :=
  { e with defaults := { e.defaults with settings } }

/-- The initializer for universes whose model has none, from the next refresh on. -/
def setDefaultInitializer (e : Engine) (initializer : Initializer) : Engine :=
  { e with defaults := { e.defaults with initializer } }

/-- Change a registered security. -/
def modify (e : Engine) (id : SecurityId) (f : Security → Security) : Engine :=
  { e with registry := e.registry.modify id f }

/-- Register a security unless its symbol is registered. -/
def register (e : Engine) (security : Security) : SecurityId × Engine :=
  let (id, registry) := e.registry.insert security
  (id, { e with registry })

/-- Have the construction service answer a request. -/
def construct (e : Engine) (q : SecurityRequest) : Except ConstructionError Security × Engine :=
  match e.facilities.service.construct q e.subscriptions with
  | (.error error, subscriptions) =>
    (.error error,
      { e with subscriptions, tally := ⟨e.tally.calls + 1, e.tally.built⟩ })
  | (.ok security, subscriptions) =>
    (.ok security,
      { e with subscriptions, tally := ⟨e.tally.calls + 1, e.tally.built + 1⟩ })

end Engine

end FuturesChains
