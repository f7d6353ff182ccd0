import FuturesChains.FrontMonth
import FuturesChains.Proofs.Selection.ChainResolution

/-!
# Hosts

A host is a program around one engine. It holds selection models of its own, which it resolves
symbols with and refreshes by hand, refreshes under way, which it pulls one at a time or abandons,
and a selection manager. `Host.run` takes a list of actions in any order, and gives the universes
that they produced with the host after them. `Host.act_engine` says all that an action can do to the
engine: it resolves symbols, and it sets the clock and the defaults as the action says. `history` is
the log of all resolutions of a run, and `keep_history` the induction over a run along its log.
-/

namespace FuturesChains

/-- What a selection model is made from. No settings and no initializer stand for the engine's
defaults. -/
structure ModelPlan where
  interval : Duration
  selector : Selector
  settings : Option UniverseSettings
  initializer : Option Initializer
  filter : ContractFilter

/-- The new model of a plan. -/
def ModelPlan.model (p : ModelPlan) : SelectionModel :=
  { SelectionModel.ofSelector p.interval p.selector with
    settings := p.settings
    initializer := p.initializer
    filter := p.filter }

/-- The facilities for the traded contracts, with the usual hours of the exchanges. -/
def Facilities.traded (service : ConstructionService) : Facilities :=
  { hours := .ofExchanges
    properties := contractSpecs
    account := .usd
    live := false
    service }

/-- A program around an engine. -/
structure Host where
  engine : Engine
  models : List SelectionModel
  refreshes : List Refresh
  manager : SelectionManager

/-- What a host does. Its models and its refreshes are numbered in the order of their making, and
an action on a number without one does nothing. The manager takes new models, and models that the
host gives up; those behind such a model move up by one. -/
inductive HostAction where
  | hold (plan : ModelPlan)
  | setFilter (model : Nat) (filter : ContractFilter)
  | resolve (model : Nat) (ctx : SelectionContext) (symbol : Symbol)
  | refresh (model : Nat) (ctx : SelectionContext)
  | pull (refresh : Nat)
  | manage (plan : ModelPlan)
  | handOver (model : Nat)
  | step
  | feed (chain : Symbol) (contracts : List Symbol)
  | setDefaultSettings (settings : UniverseSettings)
  | setDefaultInitializer (initializer : Initializer)
  | setClock (time : Instant)
  | advance (d : Duration)

namespace HostAction

/-- The time after an action. -/
def clockAfter (clock : Instant) : HostAction → Instant
  | .setClock time => time
  | .advance d => clock.advance d
  | _ => clock

/-- The defaults after an action. -/
def defaultsAfter (defaults : EngineDefaults) : HostAction → EngineDefaults
  | .setDefaultSettings settings => { defaults with settings }
  | .setDefaultInitializer initializer => { defaults with initializer }
  | _ => defaults

end HostAction

namespace Host

/-- A host with nothing but a fresh engine. -/
def start (facilities : Facilities) (clock : Instant) : Host :=
  ⟨.start facilities clock, [], [], .empty⟩

/-- Take an action: the universes that it produced, and the host after it. -/
def act (h : Host) : HostAction → Except Halt (List ChainUniverse × Host)
  | .hold plan => .ok ([], { h with models := h.models ++ [plan.model] })
  | .setFilter number filter =>
    .ok ([], { h with models := h.models.modify number ({ · with filter }) })
  | .resolve number ctx symbol =>
    match h.models[number]? with
    | none => .ok ([], h)
    | some model => do
      let (outcome, engine) ← model.resolve ctx h.engine symbol
      return (outcome.toOption.toList, { h with engine })
  | .refresh number ctx =>
    match h.models[number]? with
    | none => .ok ([], h)
    | some model =>
      let (refresh, model) := model.refresh ctx
      .ok ([], { h with
        models := h.models.set number model
        refreshes := h.refreshes ++ [refresh] })
  | .pull number =>
    match h.refreshes[number]? with
    | none => .ok ([], h)
    | some refresh => do
      match ← refresh.next h.engine with
      | (none, engine) => return ([], { h with engine })
      | (some (pull, refresh), engine) =>
        return (pull.universes, { h with engine, refreshes := h.refreshes.set number refresh })
  | .manage plan => .ok ([], { h with manager := h.manager.addModel plan.model })
  | .handOver number =>
    match h.models[number]? with
    | none => .ok ([], h)
    | some model => .ok ([], { h with
        models := h.models.eraseIdx number
        manager := h.manager.addModel model })
  | .step => do
    let (reports, manager, engine) ← h.manager.step h.engine
    return (reports.flatMap (·.universes), { h with manager, engine })
  | .feed chain contracts => do
    let (_, manager) ← h.manager.onChainContracts h.engine chain contracts
    return ([], { h with manager })
  | .setDefaultSettings settings =>
    .ok ([], { h with engine := h.engine.setDefaultSettings settings })
  | .setDefaultInitializer initializer =>
    .ok ([], { h with engine := h.engine.setDefaultInitializer initializer })
  | .setClock time => .ok ([], { h with engine := h.engine.setClock time })
  | .advance d => .ok ([], { h with engine := h.engine.advance d })

/-- Take some actions in order: the universes that they produced, and the host after them. -/
def run (h : Host) : List HostAction → Except Halt (List ChainUniverse × Host)
  | [] => .ok ([], h)
  | action :: rest => do
    let (given, h) ← h.act action
    let (more, h) ← h.run rest
    return (given ++ more, h)

/-- The resolutions of an action. -/
def attempts (h : Host) : HostAction → List Attempt
  | .resolve number ctx symbol =>
    match h.models[number]? with
    | none => []
    | some model =>
      match model.resolve ctx h.engine symbol with
      | .error _ => []
      | .ok (outcome, _) => [⟨model, ctx, symbol, outcome⟩]
  | .pull number =>
    match h.refreshes[number]? with
    | none => []
    | some refresh =>
      match refresh.next h.engine with
      | .error _ => []
      | .ok (result, _) => result.toList.map (·.1.attempt refresh.model refresh.context)
  | .step =>
    match h.manager.step h.engine with
    | .error _ => []
    | .ok (reports, manager, _) =>
      SelectionManager.attempts (manager.models[·]?) ⟨h.engine.clock, h.engine.defaults⟩ reports
  | _ => []

/-- The resolutions of some actions, in order. -/
def history (h : Host) : List HostAction → List Attempt
  | [] => []
  | action :: rest =>
    h.attempts action ++ match h.act action with
      | .error _ => []
      | .ok (_, h) => h.history rest

/-- A step of the host is a step of its manager. -/
theorem act_step_iff {h after : Host} {given : List ChainUniverse} :
    h.act .step = .ok (given, after) ↔ ∃ reports manager engine,
      h.manager.step h.engine = .ok (reports, manager, engine) ∧
        given = reports.flatMap (·.universes) ∧ after = { h with manager, engine } := by
  simp only [act, Halt.bind_eq_ok]
  constructor
  · rintro ⟨⟨reports, manager, engine⟩, hstep, hact⟩
    cases hact
    exact ⟨reports, manager, engine, hstep, rfl, rfl⟩
  · rintro ⟨reports, manager, engine, hstep, rfl, rfl⟩
    exact ⟨_, hstep, rfl⟩

/-- An action does nothing to the engine but resolve symbols and set the clock and the defaults. The
universes that it produces are those of its resolutions. -/
theorem act_engine {h after : Host} {action : HostAction} {given : List ChainUniverse}
    (hact : h.act action = .ok (given, after)) :
    given = (h.attempts action).flatMap (·.universes) ∧
      ∃ mid, Resolutions h.engine (h.attempts action) mid ∧
        after.engine = { mid with
          clock := action.clockAfter h.engine.clock
          defaults := action.defaultsAfter h.engine.defaults } := by
  have hkept : ∀ {log : List Attempt} {mid : Engine}, Resolutions h.engine log mid →
      mid = { mid with clock := h.engine.clock, defaults := h.engine.defaults } := by
    intro log mid hresolved
    obtain ⟨hclock, hdefaults⟩ := hresolved.clock_defaults
    rw [← hclock, ← hdefaults]
  cases action with
  | hold plan | setFilter number filter | manage plan | setDefaultSettings settings
  | setDefaultInitializer initializer | setClock time | advance d =>
      cases hact
      exact ⟨rfl, h.engine, .refl _, rfl⟩
  | handOver number | refresh number ctx =>
      simp only [act] at hact
      split at hact
      · cases hact
        exact ⟨rfl, h.engine, .refl _, rfl⟩
      · cases hact
        exact ⟨rfl, h.engine, .refl _, rfl⟩
  | resolve number ctx symbol =>
      simp only [act] at hact
      split at hact
      · rename_i hmodel
        cases hact
        simp only [attempts, hmodel]
        exact ⟨rfl, h.engine, .refl _, rfl⟩
      · rename_i model hmodel
        rw [Halt.bind_eq_ok] at hact
        obtain ⟨⟨outcome, engine⟩, hresolve, hact⟩ := hact
        cases hact
        simp only [attempts, hmodel, hresolve]
        have hgiven : Resolutions h.engine [⟨model, ctx, symbol, outcome⟩] engine :=
          .cons (a := ⟨model, ctx, symbol, outcome⟩) (resolve_iff.1 hresolve) (.refl engine)
        exact ⟨by simp [Attempt.universes], engine, hgiven, hkept hgiven⟩
  | pull number =>
      simp only [act] at hact
      split at hact
      · rename_i hrefresh
        cases hact
        simp only [attempts, hrefresh]
        exact ⟨rfl, h.engine, .refl _, rfl⟩
      · rename_i refresh hrefresh
        rw [Halt.bind_eq_ok] at hact
        obtain ⟨⟨result, engine⟩, hnext, hact⟩ := hact
        have hgiven := Resolutions.of_next hnext
        simp only [attempts, hrefresh, hnext]
        cases result with
        | none =>
            cases hact
            exact ⟨rfl, engine, hgiven, hkept hgiven⟩
        | some found =>
            cases hact
            exact ⟨by simp [Attempt.universes, Pull.attempt, Pull.universes], engine, hgiven,
              hkept hgiven⟩
  | step =>
      obtain ⟨reports, manager, engine, hstep, rfl, rfl⟩ := act_step_iff.1 hact
      obtain ⟨hgiven, huniverses⟩ := Resolutions.of_step hstep
      simp only [attempts, hstep]
      exact ⟨huniverses.symm, engine, hgiven, hkept hgiven⟩
  | feed chain contracts =>
      simp only [act, Halt.bind_eq_ok] at hact
      obtain ⟨⟨diff, manager⟩, hfeed, hact⟩ := hact
      cases hact
      exact ⟨rfl, h.engine, .refl _, rfl⟩

/-- A run from a first action on. -/
theorem run_cons_eq_ok {h after : Host} {action : HostAction} {rest : List HostAction}
    {given : List ChainUniverse} (hrun : h.run (action :: rest) = .ok (given, after)) :
    ∃ first mid more, h.act action = .ok (first, mid) ∧ mid.run rest = .ok (more, after) ∧
      given = first ++ more ∧
      h.history (action :: rest) = h.attempts action ++ mid.history rest := by
  simp only [run, Halt.bind_eq_ok] at hrun
  obtain ⟨⟨first, mid⟩, hact, ⟨more, last⟩, hrest, hrun⟩ := hrun
  cases hrun
  refine ⟨first, mid, more, hact, hrest, rfl, ?_⟩
  simp only [history, hact]

/-- An action and then a run from where it ended are one run. -/
theorem run_cons {h mid after : Host} {action : HostAction} {rest : List HostAction}
    {given more : List ChainUniverse} (hact : h.act action = .ok (given, mid))
    (hrest : mid.run rest = .ok (more, after)) :
    h.run (action :: rest) = .ok (given ++ more, after) := by
  simp only [run, Halt.bind_eq_ok]
  exact ⟨_, hact, _, hrest, rfl⟩

/-- Two runs, the second from where the first ended, are one. -/
theorem run_append {h mid after : Host} {actions later : List HostAction}
    {given more : List ChainUniverse} (hrun : h.run actions = .ok (given, mid))
    (hlater : mid.run later = .ok (more, after)) :
    h.run (actions ++ later) = .ok (given ++ more, after) := by
  induction actions generalizing h given with
  | nil =>
      cases hrun
      exact hlater
  | cons action rest ih =>
      obtain ⟨first, next, others, hact, hrest, rfl, -⟩ := run_cons_eq_ok hrun
      rw [List.cons_append, List.append_assoc]
      exact run_cons hact (ih hrest)

/-- The resolutions of a run that goes on are those up to there and those that follow. -/
theorem history_append {h mid : Host} {actions : List HostAction} (later : List HostAction)
    {given : List ChainUniverse} (hrun : h.run actions = .ok (given, mid)) :
    h.history (actions ++ later) = h.history actions ++ mid.history later := by
  induction actions generalizing h given with
  | nil =>
      cases hrun
      rfl
  | cons action rest ih =>
      obtain ⟨first, next, more, hact, hrest, rfl, hhistory⟩ := run_cons_eq_ok hrun
      rw [hhistory, List.append_assoc, ← ih hrest, List.cons_append]
      simp only [history, hact]

/-- What holds of an engine and the log up to now, and is kept by every resolution and by a change
of the clock and the defaults, is kept by a run. -/
theorem keep_history {P : List Attempt → Engine → Prop}
    (hresolves : ∀ log a e after, P log e →
      Resolves a.model a.context e a.symbol a.outcome after → P (log ++ [a]) after)
    (hset : ∀ log e clock defaults, P log e → P log { e with clock, defaults })
    {h after : Host} {actions : List HostAction} {given : List ChainUniverse}
    (hrun : h.run actions = .ok (given, after)) (hstart : P [] h.engine) :
    P (h.history actions) after.engine := by
  suffices hlog : ∀ log, P log h.engine → P (log ++ h.history actions) after.engine from
    hlog [] hstart
  intro log hbefore
  clear hstart
  induction actions generalizing h given log with
  | nil =>
      cases hrun
      rwa [history, List.append_nil]
  | cons action rest ih =>
      obtain ⟨first, next, more, hact, hrest, rfl, hhistory⟩ := run_cons_eq_ok hrun
      obtain ⟨-, mid, hresolved, hengine⟩ := act_engine hact
      have hnext : P (log ++ h.attempts action) next.engine := by
        rw [hengine]
        exact hset _ _ _ _ (hresolved.keep hresolves hbefore)
      rw [hhistory, ← List.append_assoc]
      exact ih hrest _ hnext

end Host

end FuturesChains
