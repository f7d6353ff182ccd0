import FuturesChains.Selection.Manager

/-!
# Sessions

A session is a run of an engine under command: models that are held directly and refreshed by hand,
models under a selection manager, the universes that were given out, a table of universes apart from
the manager's, and a reader of the registry's events. A command gives a reply and the session after
it. `Session.runAll` runs a list of commands up to the first one without an answer.
-/

namespace FuturesChains

/-- A session under way. `universes` holds the chain universes that were given out, in order. -/
structure Session where
  engine : Engine
  models : List SelectionModel
  manager : SelectionManager
  universes : List ChainUniverse
  table : ActiveUniverses
  reader : EventReader

/-- What to build outside of selection. -/
structure BuildOrder where
  symbol : Symbol
  settings : UniverseSettings
  initializer : Initializer
  internalFeed : Bool
  customData : Bool
  filtered : Bool
  register : Bool

/-- A command. A time that is not given is that of the engine's clock. -/
inductive Command where
  | newModel (model : SelectionModel)
  | setFilter (model : Nat) (filter : ContractFilter)
  | refresh (model : Nat) (time : Option Instant) (count : Option Nat)
  | createChain (model : Nat) (time : Option Instant) (symbol : Symbol)
  | addModel (model : SelectionModel)
  | step
  | onChainContracts (chain : Symbol) (contracts : List Symbol)
  | listUniverses
  | showChain (chain : Symbol)
  | tableAdd (number : Nat)
  | tableRun (chain : Symbol) (time : Option Instant) (contracts : List Symbol)
  | tableShow
  | select (number : Nat) (time : Option Instant) (contracts : List Symbol)
  | advance (span : Span)
  | setClock (time : Instant)
  | setDefaultSettings (settings : UniverseSettings)
  | setDefaultInitializer (initializer : Initializer)
  | setTradable (symbol : Symbol) (value : Bool)
  | setLeverage (symbol : Symbol) (value : Decimal)
  | get (symbol : Symbol)
  | remove (symbol : Symbol)
  | listRegistered
  | drainEvents
  | listSubscriptions (symbol : Symbol)
  | subscribe (subscription : Subscription)
  | build (order : BuildOrder)

/-- What one pull of a refresh shows: a numbered universe with the engine's counts after it, an
error, or the end. -/
inductive PullReply where
  | given (number : Nat) (chain : ChainUniverse) (counts : EngineCounts)
  | failed (error : SelectionError)
  | ended

/-- The reply to a command. -/
inductive Reply where
  | done
  | unknown
  | model (number : Nat) (nextRefresh : Instant) (interval : Span)
  | refreshed (items : List PullReply) (nextRefresh : Instant)
  | resolved (item : PullReply)
  | stepped (reports : List RefreshReport)
  | diff (diff : Option SelectionDiff)
  | universes (chains : List ActiveChain)
  | chain (active : Bool) (selected : List Symbol) (size : Nat)
  | isNew (value : Bool)
  | table (chains : List ActiveChain)
  | symbols (symbols : Option (List Symbol))
  | time (time : Instant)
  | settings (settings : UniverseSettings)
  | tradable (value : Option Bool)
  | leverage (value : Option Decimal)
  | security (id : Option SecurityId)
  | registered (symbols : List Symbol)
  | events (deliveries : List Delivery)
  | subscriptions (isEmpty : Bool) (subscriptions : List Subscription)
  | subscription (subscription : Subscription)
  | built (security : Security)
  | noMetadata (error : MetadataError)
  | notBuilt (error : ConstructionError)

namespace Session

/-- A session on a fresh engine. -/
def start (facilities : Facilities) (clock : Instant) : Session :=
  { engine := .start facilities clock
    models := []
    manager := .empty
    universes := []
    table := .empty
    reader := .atEnd .empty }

/-- How often the selectors of the session's models were asked, those of standing lists apart. -/
def selectorCalls (s : Session) : Nat :=
  let asked (m : SelectionModel) : List Instant := match m.selector with
    | .standing _ => []
    | _ => m.asked
  ((s.models ++ s.manager.models).flatMap asked).length

/-- A given time, or that of the clock. -/
def timeOf (s : Session) (time : Option Instant) : Instant := time.getD s.engine.clock

/-- Number the universes among some pulls behind those given out before. -/
def give (universes : List ChainUniverse) : List (Option Pull) → List PullReply × List ChainUniverse
  | [] => ([], universes)
  | none :: rest =>
    let (replies, universes) := give universes rest
    (.ended :: replies, universes)
  | some pull :: rest =>
    match pull.outcome with
    | .error error =>
      let (replies, universes) := give universes rest
      (.failed error :: replies, universes)
    | .ok u =>
      let (replies, later) := give (universes ++ [u]) rest
      (.given universes.length u pull.counts :: replies, later)

/-- Refresh a model that is held directly: pull a number of times, or to the end. -/
def refreshModel (s : Session) (number : Nat) (model : SelectionModel) (time : Instant)
    (count : Option Nat) : Except Halt (Reply × Session) := do
  let (refresh, model) := model.refresh (s.engine.contextAt time)
  let (pulls, engine) ← match count with
    | some count => refresh.pulls s.engine count
    | none => (refresh.drain s.engine).map fun (pulls, engine) => (pulls.map some, engine)
  let (replies, universes) := give s.universes pulls
  return (.refreshed replies model.nextRefresh,
    { s with engine, universes, models := s.models.set number model })

/-- Resolve one symbol by a model that is held directly. -/
def resolveWith (s : Session) (model : SelectionModel) (time : Instant) (symbol : Symbol) :
    Except Halt (Reply × Session) := do
  let (outcome, engine) ← model.resolve (s.engine.contextAt time) s.engine symbol
  match outcome with
  | .error error => return (.resolved (.failed error), { s with engine })
  | .ok u =>
    return (.resolved (.given s.universes.length u engine.counts),
      { s with engine, universes := s.universes ++ [u] })

/-- Change a registered security. -/
def changeRegistered (s : Session) (symbol : Symbol) (change : SecurityChange) :
    Option SecurityId × Session :=
  match s.engine.registry.find? symbol with
  | none => (none, s)
  | some id => (some id, { s with engine := s.engine.modify id (·.change change) })

/-- The request of a build order. -/
def buildRequest (e : Engine) (order : BuildOrder) (hours : HoursEntry) (properties : Properties) :
    SecurityRequest :=
  { e.facilities.request order.symbol hours properties order.settings order.initializer with
    internalFeed := order.internalFeed
    customData := order.customData
    filtered := order.filtered }

/-- Build a security outside of selection, past the construction service's refusals and its
count. -/
def build (s : Session) (order : BuildOrder) : Except Halt (Reply × Session) := do
  match ← s.engine.facilities.metadata order.symbol with
  | .error error => return (.noMetadata error, s)
  | .ok (hours, properties) =>
    match (buildRequest s.engine order hours properties).assemble s.engine.subscriptions with
    | (.error error, _) => return (.notBuilt error, s)
    | (.ok security, subscriptions) =>
      let engine := { s.engine with subscriptions }
      if order.register then
        let (id, engine) := engine.register security
        return (.security (some id), { s with engine })
      else return (.built security, { s with engine })

/-- Run one command. -/
def run (s : Session) : Command → Except Halt (Reply × Session)
  | .newModel model =>
    .ok (.model s.models.length model.nextRefresh model.interval.span,
      { s with models := s.models ++ [model] })
  | .setFilter number filter =>
    .ok (.done, { s with models := s.models.modify number ({ · with filter }) })
  | .refresh number time count =>
    match s.models[number]? with
    | none => .ok (.unknown, s)
    | some model => s.refreshModel number model (s.timeOf time) count
  | .createChain number time symbol =>
    match s.models[number]? with
    | none => .ok (.unknown, s)
    | some model => s.resolveWith model (s.timeOf time) symbol
  | .addModel model => .ok (.done, { s with manager := s.manager.addModel model })
  | .step => do
    let (reports, manager, engine) ← s.manager.step s.engine
    return (.stepped reports, { s with manager, engine })
  | .onChainContracts chain contracts => do
    let (diff, manager) ← s.manager.onChainContracts s.engine chain contracts
    return (.diff diff, { s with manager })
  | .listUniverses => .ok (.universes s.manager.universes.chains, s)
  | .showChain chain =>
    let active := s.manager.universes
    .ok (.chain (active.contains chain) (active.selected chain) active.size, s)
  | .tableAdd number =>
    match s.universes[number]? with
    | none => .ok (.unknown, s)
    | some u =>
      let (isNew, table) := s.table.add u
      .ok (.isNew isNew, { s with table })
  | .tableRun chain time contracts => do
    let (diff, table) ← s.table.run s.engine.registry chain (s.timeOf time) contracts
    return (.diff diff, { s with table })
  | .tableShow => .ok (.table s.table.chains, s)
  | .select number time contracts =>
    match s.universes[number]? with
    | none => .ok (.unknown, s)
    | some u => do
      let symbols ← u.select s.engine.registry (s.timeOf time) contracts
      return (.symbols symbols, s)
  | .advance span =>
    let engine := s.engine.advance span
    .ok (.time engine.clock, { s with engine })
  | .setClock time => .ok (.time time, { s with engine := s.engine.setClock time })
  | .setDefaultSettings settings =>
    .ok (.settings settings, { s with engine := s.engine.setDefaultSettings settings })
  | .setDefaultInitializer initializer =>
    .ok (.done, { s with engine := s.engine.setDefaultInitializer initializer })
  | .setTradable symbol value =>
    let (id, s) := s.changeRegistered symbol (.tradable value)
    .ok (.tradable (id.map fun _ => value), s)
  | .setLeverage symbol value =>
    let (id, s) := s.changeRegistered symbol (.leverage value)
    .ok (.leverage (id.map fun _ => value), s)
  | .get symbol => .ok (.security (s.engine.registry.find? symbol), s)
  | .remove symbol =>
    let (id, registry) := s.engine.registry.remove symbol
    .ok (.security id, { s with engine := { s.engine with registry } })
  | .listRegistered => .ok (.registered s.engine.registry.symbols, s)
  | .drainEvents =>
    let (deliveries, reader) := s.reader.drain s.engine.registry
    .ok (.events deliveries, { s with reader })
  | .listSubscriptions symbol =>
    .ok (.subscriptions s.engine.subscriptions.isEmpty (s.engine.subscriptions.ofSymbol symbol), s)
  | .subscribe subscription =>
    let (kept, subscriptions) := s.engine.subscriptions.add subscription
    .ok (.subscription kept, { s with engine := { s.engine with subscriptions } })
  | .build order => s.build order

/-- Run commands up to the first one without an answer: the replies, each with the session after
it, and the reason for a stop. -/
def runAll (s : Session) : List Command → List (Reply × Session) × Option Halt
  | [] => ([], none)
  | command :: rest =>
    match s.run command with
    | .error stop => ([], some stop)
    | .ok (reply, next) =>
      let (replies, stop) := runAll next rest
      ((reply, next) :: replies, stop)

end Session

end FuturesChains
