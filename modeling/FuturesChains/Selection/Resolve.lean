import FuturesChains.Selection.Chain

/-!
# Resolving a chain

Resolving a futures symbol gives the universe of its chain. The chain's security is taken from the
registry, or made on first use from the metadata of the chain. Either way the model's filter is
attached to it and it is closed for direct trading. The faults are checked in the order kind, hours,
properties, construction, and none of them changes the registry.
-/

namespace FuturesChains

/-- What a refresh may consult besides the engine: its time and the engine's defaults then. -/
structure SelectionContext where
  time : Instant
  defaults : EngineDefaults

/-- The context of a refresh at a time. -/
def Engine.contextAt (e : Engine) (time : Instant) : SelectionContext := ⟨time, e.defaults⟩

/-- The settings that a model works with: its own, else the defaults. -/
def SelectionModel.effectiveSettings (m : SelectionModel) (ctx : SelectionContext) :
    UniverseSettings :=
  m.settings.getD ctx.defaults.settings

/-- The initializer that a model works with: its own, else the default one. -/
def SelectionModel.effectiveInitializer (m : SelectionModel) (ctx : SelectionContext) :
    Initializer :=
  m.initializer.getD ctx.defaults.initializer

/-- The metadata of a symbol on its own market: hours first, then properties. -/
def Facilities.metadata (f : Facilities) (s : Symbol) :
    Except Halt (Except MetadataError (HoursEntry × Properties)) :=
  match f.hours.hours s.market s s.kind with
  | .error error => .ok (.error error)
  | .ok hours =>
    (f.properties.properties s.market s s.kind f.account).map fun found =>
      found.map fun properties => (hours, properties)

/-- The request for a security with some settings. -/
def Facilities.request (f : Facilities) (s : Symbol) (hours : HoursEntry) (properties : Properties)
    (settings : UniverseSettings) (initializer : Initializer) : SecurityRequest :=
  { symbol := s
    hours
    properties
    initializer
    resolution := settings.resolution
    fillForward := settings.fillForward
    leverage := settings.leverage
    extendedMarketHours := settings.extendedMarketHours
    internalFeed := false
    customData := false
    liveMode := f.live
    filtered := false }

/-- Make and register the security of a chain that has none. -/
def Engine.createChain (e : Engine) (chain : Symbol) (settings : UniverseSettings)
    (initializer : Initializer) : Except Halt (Except SelectionError SecurityId × Engine) := do
  match ← e.facilities.metadata chain with
  | .error error => return (.error (.metadata error), e)
  | .ok (hours, properties) =>
    match e.construct (e.facilities.request chain hours properties settings initializer) with
    | (.error error, e) => return (.error (.construction error), e)
    | (.ok security, e) =>
      let (id, e) := e.register security
      return (.ok id, e)

/-- The security of a chain: the registered one, else a new one. -/
def Engine.chainSecurity (e : Engine) (chain : Symbol) (settings : UniverseSettings)
    (initializer : Initializer) : Except Halt (Except SelectionError SecurityId × Engine) :=
  match e.registry.find? chain with
  | some id => .ok (.ok id, e)
  | none => e.createChain chain settings initializer

/-- Attach a filter to a chain's security and close it for direct trading. -/
def Security.attach (filter : ContractFilter) (s : Security) : Security :=
  (s.change (.filter filter)).change (.tradable false)

/-- Resolve a symbol to the universe of its chain. -/
def SelectionModel.resolve (m : SelectionModel) (ctx : SelectionContext) (e : Engine) (s : Symbol) :
    Except Halt (Except SelectionError ChainUniverse × Engine) := do
  -- nothing is looked up for a symbol of another kind
  if s.kind ≠ .future then return (.error (.invalidKind s), e)
  let chain := s.toCanonical
  let settings := m.effectiveSettings ctx
  let initializer := m.effectiveInitializer ctx
  match ← e.chainSecurity chain settings initializer with
  | (.error error, e) => return (.error error, e)
  -- also a reused security takes the model's filter and is closed for trading
  | (.ok id, e) => return (.ok ⟨chain, id, settings, initializer⟩, e.modify id (.attach m.filter))

end FuturesChains
