import FuturesChains.Engine.Security

/-!
# Universe settings

The subscription settings of the universes that a selection model creates, and the engine's
fallbacks for a model that was given no settings or no initializer of its own.
-/

namespace FuturesChains

/-- The settings of every chain that a universe creates. No leverage leaves it to the
initializer. -/
structure UniverseSettings where
  resolution : Resolution
  fillForward : Bool
  leverage : Option Decimal
  extendedMarketHours : Bool
  minimumTimeInUniverse : Span
  deriving DecidableEq

/-- One-minute bars, filled forward, no explicit leverage, regular hours, and one day in the
universe. -/
def UniverseSettings.standard : UniverseSettings :=
  { resolution := .minutes 1
    fillForward := true
    leverage := none
    extendedMarketHours := false
    minimumTimeInUniverse := ⟨86400⟩ }

/-- The engine's fallbacks. -/
structure EngineDefaults where
  settings : UniverseSettings
  initializer : Initializer

/-- The standard settings, and an initializer that changes nothing. -/
def EngineDefaults.standard : EngineDefaults := ⟨.standard, []⟩

end FuturesChains
