import FuturesChains.Config
import FuturesChains.FrontMonth
import FuturesChains.Log.Filter
import FuturesChains.Selection.Manager

/-!
# Backtests

A backtest keeps the configured chains in force on a simulated clock. Each cycle refreshes the model
if it is due and runs every active chain over its listed contracts; then the clock moves on by an
hour, until the end of the span is reached. A run gives log lines, an exit code and a text for
standard error. The main statement, `Instant.lt_advance_of_lt`, says that the clock always moves
on before the end, so the loop comes to one. One more variable, which is no part of the
configuration, says which log lines are shown.
-/

namespace FuturesChains

/-- The number of months that are listed for a chain. -/
def listedMonths : Nat := 6

/-- The days within which a front month contract must expire. -/
def frontWindowDays : Int := 90

/-- The time between cycles. -/
def cycleSpan : Span := ⟨3600⟩

/-- What is worth a line in the log. -/
inductive Notice where
  | starting (chains : List Symbol) (mode : Mode) (interval : Span)
  | creatingSecurity (chain : Symbol) (resolution : Resolution)
  | refreshAborted (symbol : Symbol) (error : SelectionError)
  | universeAdded (model : Nat) (chain : Symbol)
  | refreshFailed (model : Nat) (error : SelectionError) (nextRefresh : Instant)
  | selectionChanged (chain : Symbol) (added removed : Nat)
  | contractSelected (chain contract : Symbol) (time : Instant)
  | contractDeselected (chain contract : Symbol) (time : Instant)
  | finished (chains securities subscriptions : Nat)

namespace Notice

/-- The sources that log lines name. -/
inductive Source where
  | application
  | selection
  | manager

/-- The name of a source. -/
def Source.name : Source → String
  | application => "chain_refresh"
  | selection => "standard_lib::universes::future_selection"
  | manager => "standard_lib::engine_core::selection_manager"

/-- Chains with their markets, as a list of quoted texts. -/
def chainList (chains : List Symbol) : String :=
  let item (c : Symbol) : String := Text.quote (c.chainName ++ "@" ++ c.market.name)
  "[" ++ ", ".intercalate (chains.map item) ++ "]"

/-- The log entry of a notice. -/
def entry : Notice → LogEntry
  | starting chains mode interval =>
    ⟨.info, Source.name .application, "starting chain refresh",
      [("chains", chainList chains), ("mode", mode.name),
        ("interval_mins", toString interval.minutes)]⟩
  | creatingSecurity chain resolution =>
    ⟨.info, Source.name .selection, "creating future chain security",
      [("chain", chain.toText), ("resolution", resolution.name)]⟩
  | refreshAborted symbol error =>
    ⟨.warn, Source.name .selection, "futures universe refresh aborted",
      [("symbol", symbol.toText), ("error", error.message)]⟩
  | universeAdded model chain =>
    ⟨.info, Source.name .manager, "chain universe added",
      [("model", toString model), ("chain", chain.toText)]⟩
  | refreshFailed model error nextRefresh =>
    ⟨.error, Source.name .manager, "universe refresh failed",
      [("model", toString model), ("error", error.message),
        ("next_refresh", nextRefresh.toText)]⟩
  | selectionChanged chain added removed =>
    ⟨.info, Source.name .manager, "contract selection changed",
      [("chain", chain.toText), ("added", toString added), ("removed", toString removed)]⟩
  | contractSelected chain contract time =>
    ⟨.info, Source.name .application, "contract selected",
      [("chain", chain.toText), ("contract", contract.toText), ("utc_time", time.toText)]⟩
  | contractDeselected chain contract time =>
    ⟨.info, Source.name .application, "contract deselected",
      [("chain", chain.toText), ("contract", contract.toText), ("utc_time", time.toText)]⟩
  | finished chains securities subscriptions =>
    ⟨.info, Source.name .application, "backtest finished",
      [("chains", toString chains), ("securities", toString securities),
        ("subscriptions", toString subscriptions)]⟩

/-- The notices of one pull. -/
def ofPull (model : SelectionModel) (ctx : SelectionContext) (number : Nat) (pull : Pull)
    (isAdded : Bool) : List Notice :=
  -- the attempt to create a security is logged whether it succeeds or not
  let created := if pull.isNew then
      [creatingSecurity pull.symbol.toCanonical (model.effectiveSettings ctx).resolution]
    else []
  created ++ match pull.outcome with
    | .ok u => if isAdded then [universeAdded number u.chain] else []
    | .error (.invalidKind _) => []
    | .error error => [refreshAborted pull.symbol error]

/-- The notices of one refresh. -/
def ofReport (models : List SelectionModel) (ctx : SelectionContext) (report : RefreshReport) :
    List Notice :=
  match models[report.model]? with
  | none => []
  | some model =>
    let failed := report.pulls.filterMap fun (pull, _) => match pull.outcome with
      | .ok _ => none
      | .error error => some (refreshFailed report.model error report.nextRefresh)
    report.pulls.flatMap (fun (pull, isAdded) => ofPull model ctx report.model pull isAdded)
      ++ failed

/-- The notices of a change of selection. -/
def ofDiff (chain : Symbol) (time : Instant) (diff : SelectionDiff) : List Notice :=
  let changed := if diff.isEmpty then []
    else [selectionChanged chain diff.added.length diff.removed.length]
  changed ++ diff.added.map (contractSelected chain · time)
    ++ diff.removed.map (contractDeselected chain · time)

end Notice

/-- A backtest under way. -/
structure Backtest where
  engine : Engine
  manager : SelectionManager

/-- What one cycle did: the refreshes of its step, and the changes of the selections of the active
chains, in the order of the chains. -/
structure CycleReport where
  refreshes : List RefreshReport
  changes : List (Symbol × SelectionDiff)

namespace Backtest

/-- A backtest in an engine that keeps some chains in force and selects the nearest contract of each
within some days. -/
def ofChains (e : Engine) (chains : List Symbol) (interval : Duration) (maxDays : Int) :
    Backtest :=
  ⟨e, SelectionManager.empty.addModel (frontMonthModel chains interval maxDays)⟩

/-- The backtest of a configuration before its first cycle. -/
def start (cfg : Config) : Backtest :=
  let facilities : Facilities :=
    { hours := HoursTable.ofExchanges
      properties := contractSpecs
      account := cfg.account
      live := false
      service := .standard }
  ofChains (.start facilities cfg.start) cfg.chains cfg.interval frontWindowDays

/-- The contracts listed for an active chain at an instant, for some months. -/
def listed (months : Nat) (r : Registry) (now : Instant) (entry : ActiveChain) :
    Except Halt (List Symbol) :=
  match r.security? entry.current.security with
  | none => .ok []
  | some security => do
    let today ← Halt.localTimeOutOfRange.orStop (security.hours.localDate? now)
    return monthlyListing entry.chain today months

/-- Feed an active chain its listed contracts: the change of its selection, and the backtest after
it. -/
def selectChain (months : Nat) (b : Backtest) (entry : ActiveChain) :
    Except Halt (List (Symbol × SelectionDiff) × Backtest) := do
  let contracts ← listed months b.engine.registry b.engine.clock entry
  let (diff, manager) ← b.manager.onChainContracts b.engine entry.chain contracts
  return (diff.toList.map (entry.chain, ·), { b with manager })

/-- Feed some active chains, in order. -/
def selectChains (months : Nat) (b : Backtest) :
    List ActiveChain → Except Halt (List (Symbol × SelectionDiff) × Backtest)
  | [] => .ok ([], b)
  | entry :: rest => do
    let (changes, b) ← b.selectChain months entry
    let (others, b) ← b.selectChains months rest
    return (changes ++ others, b)

/-- One cycle: refresh the models that are due, then select contracts for every active chain. -/
def cycle (months : Nat) (b : Backtest) : Except Halt (CycleReport × Backtest) := do
  let (refreshes, manager, engine) ← b.manager.step b.engine
  let (changes, b) ← selectChains months ⟨engine, manager⟩ manager.universes.chains
  return (⟨refreshes, changes⟩, b)

/-- Feeding a chain leaves the engine and the models. -/
theorem selectChain_keeps {months : Nat} {b after : Backtest} {entry : ActiveChain}
    {changes : List (Symbol × SelectionDiff)}
    (h : b.selectChain months entry = .ok (changes, after)) :
    after.engine = b.engine ∧ after.manager.models = b.manager.models := by
  simp only [selectChain, SelectionManager.onChainContracts, Halt.bind_eq_ok] at h
  obtain ⟨contracts, -, ⟨diff, manager⟩, ⟨⟨diff', universes⟩, -, hfed⟩, h⟩ := h
  cases hfed
  cases h
  exact ⟨rfl, rfl⟩

theorem selectChains_keeps {months : Nat} {b after : Backtest} {entries : List ActiveChain}
    {changes : List (Symbol × SelectionDiff)}
    (h : b.selectChains months entries = .ok (changes, after)) :
    after.engine = b.engine ∧ after.manager.models = b.manager.models := by
  induction entries generalizing b changes with
  | nil =>
    cases h
    exact ⟨rfl, rfl⟩
  | cons entry rest ih =>
    simp only [selectChains, Halt.bind_eq_ok] at h
    obtain ⟨⟨first, mid⟩, hfirst, ⟨others, last⟩, hrest, h⟩ := h
    cases h
    obtain ⟨hengine, hmodels⟩ := selectChain_keeps hfirst
    obtain ⟨hengine', hmodels'⟩ := ih hrest
    exact ⟨hengine'.trans hengine, hmodels'.trans hmodels⟩

/-- A cycle steps the manager; what it does besides leaves the engine and the models. -/
theorem cycle_eq_ok {months : Nat} {b after : Backtest} {report : CycleReport}
    (h : b.cycle months = .ok (report, after)) :
    ∃ manager, b.manager.step b.engine = .ok (report.refreshes, manager, after.engine) ∧
      after.manager.models = manager.models := by
  simp only [cycle, Halt.bind_eq_ok] at h
  obtain ⟨⟨refreshes, manager, engine⟩, hstep, ⟨changes, last⟩, hselect, h⟩ := h
  cases h
  obtain ⟨hengine, hmodels⟩ := selectChains_keeps hselect
  refine ⟨manager, ?_, hmodels⟩
  rw [hengine]
  exact hstep

/-- The notices of a cycle that led from one state to another. -/
def notices (before after : Backtest) (report : CycleReport) : List Notice :=
  let now := before.engine.clock
  let ctx := before.engine.contextAt now
  report.refreshes.flatMap (Notice.ofReport after.manager.models ctx)
    ++ report.changes.flatMap fun (chain, diff) => Notice.ofDiff chain now diff

/-- Set the clock of a backtest. -/
def setClock (b : Backtest) (now : Instant) : Backtest := { b with engine := b.engine.setClock now }

/-- The last notice. -/
def finished (b : Backtest) : Notice :=
  .finished b.manager.universes.size b.engine.registry.size b.engine.subscriptions.length

end Backtest

/-- A distance between instants that every later instant makes shorter. -/
def Instant.ticks (t : Instant) : Int := t.second * 2000000000 + t.nano

theorem Instant.ticks_lt {a b : Instant} (h : a < b) : a.ticks < b.ticks := by
  have ha : a.nano < 2 * Instant.nanosPerSecond := a.inRange.2.2.1
  unfold Instant.ticks
  simp only [Instant.nanosPerSecond] at ha
  rcases Instant.lt_iff.1 h with h | ⟨h, h'⟩ <;> omega

/-- Before any other instant the clock moves on. -/
theorem Instant.lt_advance_of_lt {now finish : Instant} {d : Duration} (hd : 0 < d.nanos)
    (h : now < finish) : now < now.advance d := by
  cases hadd : now.add? d with
  | some later =>
    rw [Instant.advance_of_add? hadd]
    exact Instant.lt_of_add? hd hadd
  | none =>
    rw [Instant.advance_eq_latest hadd]
    have hle := Instant.le_latest finish
    rw [Instant.lt_iff] at h ⊢
    rw [Instant.le_iff] at hle
    omega

namespace Backtest

/-- Run the cycles from an instant on until the end is reached. The log so far is given, and the
log of the whole run returned, the latest notice first. -/
def runFrom (now finish : Instant) (b : Backtest) (log : List Notice) :
    Except Halt (List Notice × Backtest) :=
  if _h : now < finish then
    match (b.setClock now).cycle listedMonths with
    | .error stop => .error stop
    | .ok (report, after) =>
      runFrom (now.advance cycleSpan) finish after
        ((notices (b.setClock now) after report).reverse ++ log)
  else .ok (log, b.setClock now)
  termination_by (Instant.latest.ticks - now.ticks).toNat
  decreasing_by
    have hnow := Instant.ticks_lt (@Instant.lt_advance_of_lt now finish cycleSpan (by decide) _h)
    have hlast := Instant.ticks_lt (a := now) (b := Instant.latest) (by
      have hle := Instant.le_latest finish
      have hlt := Instant.lt_iff.1 _h
      rw [Instant.lt_iff]
      rw [Instant.le_iff] at hle
      omega)
    omega

/-- The log of a whole backtest, the latest notice first, and the state at its end. -/
def run (cfg : Config) : Except Halt (List Notice × Backtest) :=
  runFrom cfg.start cfg.finish (start cfg) [.starting cfg.chains cfg.mode cfg.interval]

end Backtest

/-- What a program leaves behind: the exit code, the lines of its log and the text on standard
error. -/
structure Outcome where
  exit : UInt32
  lines : List String
  errors : String
  deriving DecidableEq

namespace Outcome

/-- The outcome of a configuration that is wrong. -/
def ofConfigError (e : ConfigError) : Outcome := ⟨1, [], e.report⟩

/-- The outcome of a backtest that has no answer. -/
def ofHalt (stop : Halt) : Outcome := ⟨101, [], stop.message ++ "\n"⟩

/-- The outcome of a backtest from its log, the latest notice first, and its last state. The filter
says which entries of the log are shown. -/
def ofRun (filter : LogFilter) (log : List Notice) (b : Backtest) : Outcome :=
  let entries := (b.finished :: log).reverse.map Notice.entry
  ⟨0, (entries.filter filter.enables).map LogEntry.toText, ""⟩

/-- The outcome of a live configuration, for which there is no wall clock here. -/
def ofLive : Outcome := ⟨1, [], "Error: live mode needs a wall clock\n"⟩

/-- Run the backtest of a configuration. -/
def ofConfig (filter : LogFilter) (cfg : Config) : Outcome :=
  match cfg.mode with
  | .live => ofLive
  | .backtest =>
    match Backtest.run cfg with
    | .ok (log, b) => ofRun filter log b
    | .error stop => ofHalt stop

end Outcome

/-- The variable that sets the log filter. -/
def logVariable : String := "RUST_LOG"

/-- Run a backtest with the settings of an environment. -/
def runBacktest (env : Environment) : Outcome :=
  match Config.read env with
  | .ok cfg => .ofConfig (.ofSetting (env logVariable)) cfg
  | .error e => .ofConfigError e

/-- The outcome of a backtest that comes to its end. -/
theorem runBacktest_eq_ofRun {env : Environment} {cfg : Config} {log : List Notice} {b : Backtest}
    (hread : Config.read env = .ok cfg) (hmode : cfg.mode = .backtest)
    (hrun : Backtest.run cfg = .ok (log, b)) :
    runBacktest env = .ofRun (.ofSetting (env logVariable)) log b := by
  -- an equation of the definition would have to evaluate the reading to be proved
  delta runBacktest
  rw [hread]
  show Outcome.ofConfig _ cfg = _
  rw [Outcome.ofConfig, hmode, hrun]

end FuturesChains
