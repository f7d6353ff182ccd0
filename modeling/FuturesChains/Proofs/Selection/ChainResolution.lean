import FuturesChains.Proofs.Selection.ActiveSelection
import FuturesChains.Selection.Manager

/-!
# What a resolution does to an engine

`Resolves m ctx e s outcome after` lists the five ways in which a model can resolve a symbol: the
symbol is no future, its chain has a security, the chain's metadata is missing, construction
refuses, or a new security is registered. `resolve_iff` says that these are exactly the answers of
`SelectionModel.resolve`. A pull, a refresh and a step of a manager are nothing but resolutions one
after the other: `Resolutions.of_next`, `Resolutions.of_drain` and `Resolutions.of_step` say so,
with a log of the resolutions. What every resolution keeps, all of them keep (`Resolutions.keep`).
-/

namespace FuturesChains

namespace Registry

/-- The registry with one more security, in a cell of its own. -/
def extend (r : Registry) (security : Security) : Registry :=
  { cells := r.cells ++ [security]
    index := r.index ++ [(security.symbol, ⟨r.cells.length⟩)]
    journal := r.journal ++ [.added security.symbol] }

@[simp] theorem index_extend (r : Registry) (security : Security) :
    (r.extend security).index = r.index ++ [(security.symbol, ⟨r.cells.length⟩)] := rfl

/-- The newest cell holds the newest security. -/
@[simp] theorem security?_extend_length (r : Registry) (security : Security) :
    (r.extend security).security? ⟨r.cells.length⟩ = some security := by
  simp [security?, extend]

/-- The insertion of a symbol that is not registered. -/
theorem insert_of_find?_eq_none {r : Registry} {security : Security}
    (h : r.find? security.symbol = none) :
    r.insert security = (⟨r.cells.length⟩, r.extend security) := by
  simp [insert, h, extend]

/-- A change of the newest security is a change before its registration. -/
theorem modify_extend (r : Registry) (security : Security) (f : Security → Security)
    (hsymbol : (f security).symbol = security.symbol) :
    (r.extend security).modify ⟨r.cells.length⟩ f = r.extend (f security) := by
  have hcells : (r.cells ++ [security]).modify r.cells.length f = r.cells ++ [f security] := by
    induction r.cells with
    | nil => rfl
    | cons head tail ih => simp [ih]
  simp [modify, extend, hcells, hsymbol]

end Registry

@[simp] theorem Security.symbol_attach (filter : ContractFilter) (s : Security) :
    (s.attach filter).symbol = s.symbol := rfl

/-- The security of a request is for the request's symbol, whatever the initializer does. -/
theorem SecurityRequest.symbol_security (q : SecurityRequest) (subscription : Subscription) :
    (q.security subscription).symbol = q.symbol := by
  have hrun := (Security.facts_run (.assembled q.symbol q.properties q.hours.hours
    q.hours.dataZone subscription) q.initializer).1
  unfold security
  split
  · exact hrun
  · exact hrun

/-- A construction service answers with the security of the request and the table that holds its
subscription, unless it refuses. -/
theorem ConstructionService.construct_eq_ok {service : ConstructionService} {q : SecurityRequest}
    {table after : SubscriptionTable} {security : Security}
    (h : service.construct q table = (.ok security, after)) :
    service.refusal q table = none ∧ q.properties.lotSize.isPositive = true ∧
      security = q.security (table.add q.subscription).1 ∧
      after = (table.add q.subscription).2 := by
  unfold construct at h
  split at h
  · cases h
  · rename_i hrefusal
    unfold SecurityRequest.assemble at h
    split at h
    · rename_i hlot
      cases h
      exact ⟨hrefusal, hlot, rfl, rfl⟩
    · cases h

/-- A construction service refuses a request for causes of its own, or else for its lot size, and
then it leaves the table. -/
theorem ConstructionService.construct_eq_error_iff {service : ConstructionService}
    {q : SecurityRequest} {table left : SubscriptionTable} {error : ConstructionError} :
    service.construct q table = (.error error, left) ↔
      (∃ causes, service.refusal q table = some (causes, left) ∧ error = .refused causes) ∨
        service.refusal q table = none ∧ q.properties.lotSize.isPositive = false ∧
          error = .lotSize q.properties.lotSize q.symbol ∧ left = table := by
  unfold construct
  cases hrefusal : service.refusal q table with
  | some refusal =>
      constructor
      · intro h
        cases h
        exact .inl ⟨refusal.1, rfl, rfl⟩
      · rintro (⟨causes, h, rfl⟩ | ⟨h, -⟩)
        · cases h
          rfl
        · cases h
  | none =>
      cases hlot : q.properties.lotSize.isPositive with
      | false => simp [SecurityRequest.assemble, hlot, eq_comm (a := error), eq_comm (a := left)]
      | true => simp [SecurityRequest.assemble, hlot]

/-- Where a service leaves the table with its refusals, so it does with every failure. -/
theorem ConstructionService.LeavesTable.eq_of_construct {service : ConstructionService}
    (hservice : service.LeavesTable) {q : SecurityRequest} {table left : SubscriptionTable}
    {error : ConstructionError} (h : service.construct q table = (.error error, left)) :
    left = table := by
  rcases construct_eq_error_iff.1 h with ⟨causes, hrefusal, -⟩ | ⟨-, -, -, hleft⟩
  · exact hservice q table causes left hrefusal
  · exact hleft

/-- The universe that a model makes of a chain's security. -/
def SelectionModel.chainUniverse (m : SelectionModel) (ctx : SelectionContext) (chain : Symbol)
    (id : SecurityId) : ChainUniverse :=
  ⟨chain, id, m.effectiveSettings ctx, m.effectiveInitializer ctx⟩

/-- The request that a model makes for the security of a chain. -/
def SelectionModel.chainRequest (m : SelectionModel) (ctx : SelectionContext) (f : Facilities)
    (chain : Symbol) (hours : HoursEntry) (properties : Properties) : SecurityRequest :=
  f.request chain hours properties (m.effectiveSettings ctx) (m.effectiveInitializer ctx)

namespace Engine

/-- The engine after a construction that failed: the table of subscriptions is the one that the
service left. -/
def countRefusal (e : Engine) (table : SubscriptionTable) : Engine :=
  { e with
    subscriptions := table
    tally := ⟨e.tally.calls + 1, e.tally.built⟩ }

/-- The engine after a construction that succeeded: the new security is registered and the table of
subscriptions is the one that the service left. -/
def extend (e : Engine) (security : Security) (table : SubscriptionTable) : Engine :=
  { e with
    registry := e.registry.extend security
    subscriptions := table
    tally := ⟨e.tally.calls + 1, e.tally.built + 1⟩ }

end Engine

/-- `Resolves m ctx e s outcome after` says that model `m` resolves symbol `s` in engine `e` with
this outcome and leaves engine `after`. -/
inductive Resolves (m : SelectionModel) (ctx : SelectionContext) (e : Engine) (s : Symbol) :
    Except SelectionError ChainUniverse → Engine → Prop where
  | invalidKind (hkind : s.kind ≠ .future) : Resolves m ctx e s (.error (.invalidKind s)) e
  | reused (id : SecurityId) (hkind : s.kind = .future)
      (hfind : e.registry.find? s.toCanonical = some id) :
      Resolves m ctx e s (.ok (m.chainUniverse ctx s.toCanonical id))
        (e.modify id (.attach m.filter))
  | unknown (error : MetadataError) (hkind : s.kind = .future)
      (hfind : e.registry.find? s.toCanonical = none)
      (hmetadata : e.facilities.metadata s.toCanonical = .ok (.error error)) :
      Resolves m ctx e s (.error (.metadata error)) e
  | refused (hours : HoursEntry) (properties : Properties) (error : ConstructionError)
      (table : SubscriptionTable) (hkind : s.kind = .future)
      (hfind : e.registry.find? s.toCanonical = none)
      (hmetadata : e.facilities.metadata s.toCanonical = .ok (.ok (hours, properties)))
      (hconstruct : e.facilities.service.construct
        (m.chainRequest ctx e.facilities s.toCanonical hours properties) e.subscriptions =
          (.error error, table)) :
      Resolves m ctx e s (.error (.construction error)) (e.countRefusal table)
  | created (hours : HoursEntry) (properties : Properties) (security : Security)
      (table : SubscriptionTable) (hkind : s.kind = .future)
      (hfind : e.registry.find? s.toCanonical = none)
      (hmetadata : e.facilities.metadata s.toCanonical = .ok (.ok (hours, properties)))
      (hconstruct : e.facilities.service.construct
        (m.chainRequest ctx e.facilities s.toCanonical hours properties) e.subscriptions =
          (.ok security, table)) :
      Resolves m ctx e s (.ok (m.chainUniverse ctx s.toCanonical ⟨e.registry.cells.length⟩))
        (e.extend (security.attach m.filter) table)

/-- The security that a service makes for a chain is for that chain. -/
theorem symbol_of_construct {m : SelectionModel} {ctx : SelectionContext} {f : Facilities}
    {chain : Symbol} {hours : HoursEntry} {properties : Properties} {security : Security}
    {table after : SubscriptionTable}
    (h : f.service.construct (m.chainRequest ctx f chain hours properties) table =
      (.ok security, after)) : security.symbol = chain := by
  obtain ⟨-, -, rfl, -⟩ := ConstructionService.construct_eq_ok h
  exact SecurityRequest.symbol_security _ _

namespace SelectionModel

variable {m : SelectionModel} {ctx : SelectionContext} {e : Engine} {s : Symbol}

/-- A symbol of another kind is refused before anything is looked up. -/
theorem resolve_of_kind_ne (hkind : s.kind ≠ .future) :
    m.resolve ctx e s = .ok (.error (.invalidKind s), e) := by
  simp [resolve, hkind, pure, Except.pure]

/-- A chain with a security is resolved without metadata or construction. -/
theorem resolve_of_registered {id : SecurityId} (hkind : s.kind = .future)
    (hfind : e.registry.find? s.toCanonical = some id) :
    m.resolve ctx e s =
      .ok (.ok (m.chainUniverse ctx s.toCanonical id), e.modify id (.attach m.filter)) := by
  simp [resolve, hkind, Engine.chainSecurity, hfind, chainUniverse, bind, Except.bind, pure,
    Except.pure]

/-- A chain without a security asks for metadata, then for construction. -/
theorem resolve_of_unregistered (hkind : s.kind = .future)
    (hfind : e.registry.find? s.toCanonical = none) :
    m.resolve ctx e s = (e.facilities.metadata s.toCanonical).map fun
      | .error error => (.error (.metadata error), e)
      | .ok (hours, properties) =>
        match e.facilities.service.construct
            (m.chainRequest ctx e.facilities s.toCanonical hours properties) e.subscriptions with
        | (.error error, table) => (.error (.construction error), e.countRefusal table)
        | (.ok security, table) =>
          (.ok (m.chainUniverse ctx s.toCanonical ⟨e.registry.cells.length⟩),
            e.extend (security.attach m.filter) table) := by
  simp only [resolve, hkind, ne_eq, not_true_eq_false, if_false, Engine.chainSecurity, hfind,
    Engine.createChain]
  cases e.facilities.metadata s.toCanonical with
  | error stop => rfl
  | ok found =>
      rcases found with error | ⟨hours, properties⟩
      · rfl
      · rcases hconstruct : e.facilities.service.construct
            (m.chainRequest ctx e.facilities s.toCanonical hours properties) e.subscriptions with
          ⟨made, table⟩
        cases made with
        | error error =>
            have hrefused := hconstruct
            simp only [chainRequest] at hrefused
            simp only [bind, Except.bind, Except.map, Engine.construct, hrefused, hconstruct]
            rfl
        | ok security =>
            have hbuilt := hconstruct
            simp only [chainRequest] at hbuilt
            have hnew : e.registry.find? security.symbol = none := by
              rwa [symbol_of_construct hconstruct]
            have hregister := Registry.insert_of_find?_eq_none hnew
            have hattach := Registry.modify_extend e.registry security (.attach m.filter) rfl
            simp only [bind, Except.bind, Except.map, Engine.construct, hbuilt, hconstruct,
              Engine.register, hregister, pure, Except.pure, Engine.modify, hattach]
            rfl

end SelectionModel

/-- The relation holds of exactly the answers of `SelectionModel.resolve`. -/
theorem resolve_iff {m : SelectionModel} {ctx : SelectionContext} {e after : Engine}
    {s : Symbol} {outcome : Except SelectionError ChainUniverse} :
    m.resolve ctx e s = .ok (outcome, after) ↔ Resolves m ctx e s outcome after := by
  constructor
  · intro h
    by_cases hkind : s.kind = .future
    · cases hfind : e.registry.find? s.toCanonical with
      | some id =>
          rw [SelectionModel.resolve_of_registered hkind hfind] at h
          cases h
          exact .reused id hkind hfind
      | none =>
          rw [SelectionModel.resolve_of_unregistered hkind hfind, Halt.map_eq_ok] at h
          obtain ⟨found, hmetadata, h⟩ := h
          rcases found with error | ⟨hours, properties⟩
          · cases h
            exact .unknown error hkind hfind hmetadata
          · rcases hconstruct : e.facilities.service.construct
                (m.chainRequest ctx e.facilities s.toCanonical hours properties)
                e.subscriptions with
              ⟨made, table⟩
            cases made with
            | error error =>
                simp only [hconstruct] at h
                cases h
                exact .refused hours properties error table hkind hfind hmetadata hconstruct
            | ok security =>
                simp only [hconstruct] at h
                cases h
                exact .created hours properties security table hkind hfind hmetadata hconstruct
    · rw [SelectionModel.resolve_of_kind_ne hkind] at h
      cases h
      exact .invalidKind hkind
  · intro h
    cases h with
    | invalidKind hkind => exact SelectionModel.resolve_of_kind_ne hkind
    | reused id hkind hfind => exact SelectionModel.resolve_of_registered hkind hfind
    | unknown error hkind hfind hmetadata =>
        rw [SelectionModel.resolve_of_unregistered hkind hfind, hmetadata]
        rfl
    | refused hours properties error table hkind hfind hmetadata hconstruct =>
        rw [SelectionModel.resolve_of_unregistered hkind hfind, hmetadata]
        simp only [Except.map, hconstruct]
    | created hours properties security table hkind hfind hmetadata hconstruct =>
        rw [SelectionModel.resolve_of_unregistered hkind hfind, hmetadata]
        simp only [Except.map, hconstruct]

/-- The universe of a successful resolution is that of the symbol's chain and the model's own
settings and initializer, else the defaults. -/
theorem Resolves.universe_eq {m : SelectionModel} {ctx : SelectionContext} {e after : Engine}
    {s : Symbol} {u : ChainUniverse} (h : Resolves m ctx e s (.ok u) after) :
    u = m.chainUniverse ctx s.toCanonical u.security := by
  cases h with
  | reused | created => rfl

/-- A universe is for the chain of the symbol that was resolved. -/
theorem Resolves.chain_eq {m : SelectionModel} {ctx : SelectionContext} {e after : Engine}
    {s : Symbol} {u : ChainUniverse} (h : Resolves m ctx e s (.ok u) after) :
    u.chain = s.toCanonical :=
  congrArg (·.chain) h.universe_eq

/-- A resolution leaves the clock and the defaults. -/
theorem Resolves.clock_defaults {m : SelectionModel} {ctx : SelectionContext} {e after : Engine}
    {s : Symbol} {outcome : Except SelectionError ChainUniverse}
    (h : Resolves m ctx e s outcome after) :
    after.clock = e.clock ∧ after.defaults = e.defaults := by
  cases h <;> exact ⟨rfl, rfl⟩

/-- The entry of a resolution in a log: the model, what it consulted, the symbol and the outcome. -/
structure Attempt where
  model : SelectionModel
  context : SelectionContext
  symbol : Symbol
  outcome : Except SelectionError ChainUniverse

/-- The universe that an attempt gave, if any. -/
def Attempt.universes (a : Attempt) : List ChainUniverse := a.outcome.toOption.toList

/-- The attempt gave the universe of a chain: it resolved a symbol of that chain. -/
def Attempt.gives (a : Attempt) (chain : Symbol) : Bool :=
  match a.outcome with
  | .ok _ => a.symbol.toCanonical = chain
  | .error _ => false

theorem Attempt.gives_iff {a : Attempt} {chain : Symbol} :
    a.gives chain = true ↔ (∃ u, a.outcome = .ok u) ∧ a.symbol.toCanonical = chain := by
  unfold gives
  split <;> simp [*]

/-- The attempt of a pull from a refresh of a model. -/
def Pull.attempt (p : Pull) (m : SelectionModel) (ctx : SelectionContext) : Attempt :=
  ⟨m, ctx, p.symbol, p.outcome⟩

/-- The universe that a pull gave, if any. -/
def Pull.universes (p : Pull) : List ChainUniverse := p.outcome.toOption.toList

namespace RefreshReport

/-- The universes that a refresh gave. -/
def universes (r : RefreshReport) : List ChainUniverse :=
  r.pulls.flatMap (·.1.universes)

/-- The attempts of a refresh of a model. -/
def attempts (r : RefreshReport) (m : SelectionModel) (ctx : SelectionContext) : List Attempt :=
  r.pulls.map (·.1.attempt m ctx)

theorem universes_attempts (r : RefreshReport) (m : SelectionModel) (ctx : SelectionContext) :
    (r.attempts m ctx).flatMap (·.universes) = r.universes := by
  rw [attempts, List.flatMap_map]
  rfl

end RefreshReport

/-- `Resolutions e log after` says that the resolutions of a log, each in the engine that the one
before left, lead from engine `e` to engine `after`. -/
inductive Resolutions : Engine → List Attempt → Engine → Prop where
  | refl (e : Engine) : Resolutions e [] e
  | cons {a : Attempt} {e mid after : Engine} {log : List Attempt}
      (hfirst : Resolves a.model a.context e a.symbol a.outcome mid)
      (hrest : Resolutions mid log after) : Resolutions e (a :: log) after

namespace Resolutions

/-- Resolutions after resolutions are resolutions. -/
theorem append {e mid after : Engine} {log later : List Attempt}
    (hfirst : Resolutions e log mid) (hlater : Resolutions mid later after) :
    Resolutions e (log ++ later) after := by
  induction hfirst with
  | refl e => exact hlater
  | cons hfirst _ ih => exact .cons hfirst (ih hlater)

/-- What holds of an engine and its log up to now, and is kept by every single resolution, is kept
by resolutions. -/
theorem keep {P : List Attempt → Engine → Prop}
    (hstep : ∀ log a e after, P log e → Resolves a.model a.context e a.symbol a.outcome after →
      P (log ++ [a]) after)
    {e after : Engine} {log later : List Attempt} (h : Resolutions e later after)
    (hstart : P log e) : P (log ++ later) after := by
  induction h generalizing log with
  | refl e => rwa [List.append_nil]
  | @cons a e mid after rest hfirst _ ih =>
      have hrest := ih (hstep log a e mid hstart hfirst)
      rwa [List.append_assoc, List.singleton_append] at hrest

/-- Resolutions leave the clock and the defaults. -/
theorem clock_defaults {e after : Engine} {log : List Attempt}
    (h : Resolutions e log after) : after.clock = e.clock ∧ after.defaults = e.defaults := by
  induction h with
  | refl e => exact ⟨rfl, rfl⟩
  | cons hfirst _ ih =>
      obtain ⟨hclock, hdefaults⟩ := hfirst.clock_defaults
      exact ⟨ih.1.trans hclock, ih.2.trans hdefaults⟩

end Resolutions

namespace SelectionManager

/-- The attempts of some refreshes, whose models are found by their numbers. -/
def attempts (models : Nat → Option SelectionModel) (ctx : SelectionContext)
    (reports : List RefreshReport) : List Attempt :=
  reports.flatMap fun report => (models report.model).toList.flatMap (report.attempts · ctx)

/-- The model of an attempt is found by the number of its report. -/
theorem of_mem_attempts {models : Nat → Option SelectionModel} {ctx : SelectionContext}
    {reports : List RefreshReport} {a : Attempt} (h : a ∈ attempts models ctx reports) :
    a.context = ctx ∧ ∃ report ∈ reports, models report.model = some a.model := by
  obtain ⟨report, hreport, h⟩ := List.mem_flatMap.1 h
  obtain ⟨model, hmodel, h⟩ := List.mem_flatMap.1 h
  obtain ⟨pull, -, rfl⟩ := List.mem_map.1 h
  exact ⟨rfl, report, hreport, Option.mem_toList.1 hmodel⟩

/-- A report holds the pulls of its refresh, in their order. -/
theorem pulls_activate (universes : ActiveUniverses) (pulls : List Pull) :
    (activate universes pulls).1.map (·.1) = pulls := by
  induction pulls generalizing universes with
  | nil => rfl
  | cons p rest ih => simp only [activate, List.map_cons, ih]

/-- The universes among some pulls are put in force. -/
theorem universes_activate (universes : ActiveUniverses) (pulls : List Pull) :
    (activate universes pulls).2 = universes.addAll (pulls.flatMap (·.universes)) := by
  induction pulls generalizing universes with
  | nil => rfl
  | cons p rest ih =>
      cases houtcome : p.outcome with
      | error error =>
          simp only [activate, houtcome, ih, List.flatMap_cons, Pull.universes]
          rfl
      | ok u =>
          simp only [activate, houtcome, ih, List.flatMap_cons, Pull.universes]
          rfl

/-- A refresh by a manager pulls what the model's selector gives at that time, notes so in the model
and puts the universes that it gave in force. -/
theorem refreshModel_eq_ok {now : Instant} {number : Nat} {model model' : SelectionModel}
    {universes universes' : ActiveUniverses} {e after : Engine} {report : RefreshReport}
    (h : refreshModel number model now universes e = .ok (report, model', universes', after)) :
    model' = model.refreshed now ∧ report.model = number ∧
      report.nextRefresh = (model.refreshed now).nextRefresh ∧
      (model.refresh (e.contextAt now)).1.drain e = .ok (report.pulls.map (·.1), after) ∧
      universes' = universes.addAll report.universes := by
  simp only [refreshModel, Halt.bind_eq_ok] at h
  obtain ⟨⟨pulls, last⟩, hdrain, h⟩ := h
  cases h
  have hgiven : pulls.flatMap (·.universes) =
      (activate universes pulls).1.flatMap (·.1.universes) := calc
    _ = ((activate universes pulls).1.map (·.1)).flatMap (·.universes) := by rw [pulls_activate]
    _ = _ := List.flatMap_map ..
  refine ⟨rfl, rfl, rfl, by rwa [pulls_activate], ?_⟩
  exact (universes_activate universes pulls).trans (congrArg universes.addAll hgiven)

/-- A pass over some models refreshes the first one if it is due, and goes on with the others. -/
theorem stepModels_cons_eq_ok {now : Instant} {number : Nat} {model : SelectionModel}
    {universes universes' : ActiveUniverses} {e after : Engine}
    {rest models' : List SelectionModel} {reports : List RefreshReport}
    (h : stepModels now number universes e (model :: rest) =
      .ok (reports, models', universes', after)) :
    (model.isDue now = true ∧ ∃ report universes₁ mid reports' rest',
        refreshModel number model now universes e =
          .ok (report, model.refreshed now, universes₁, mid) ∧
        stepModels now (number + 1) universes₁ mid rest =
          .ok (reports', rest', universes', after) ∧
        reports = report :: reports' ∧ models' = model.refreshed now :: rest') ∨
      (model.isDue now = false ∧ ∃ rest',
        stepModels now (number + 1) universes e rest = .ok (reports, rest', universes', after) ∧
          models' = model :: rest') := by
  unfold stepModels at h
  split at h
  · rename_i hdue
    simp only [Halt.bind_eq_ok] at h
    obtain ⟨⟨report, model', universes₁, mid⟩, hrefresh, ⟨reports', rest', universes₂, last⟩,
      hlater, h⟩ := h
    cases h
    obtain ⟨rfl, -⟩ := refreshModel_eq_ok hrefresh
    exact .inl ⟨hdue, report, universes₁, mid, reports', rest', hrefresh, hlater, rfl, rfl⟩
  · rename_i hdue
    simp only [Halt.bind_eq_ok] at h
    obtain ⟨⟨reports', rest', universes₁, last⟩, hlater, h⟩ := h
    cases h
    exact .inr ⟨by simpa using hdue, rest', hlater, rfl⟩

/-- A pass over some models puts the universes of its reports in force. -/
theorem universes_stepModels {now : Instant} {number : Nat}
    {universes universes' : ActiveUniverses} {e after : Engine}
    {models models' : List SelectionModel} {reports : List RefreshReport}
    (h : stepModels now number universes e models = .ok (reports, models', universes', after)) :
    universes' = universes.addAll (reports.flatMap (·.universes)) := by
  induction models generalizing number universes e reports models' universes' after with
  | nil =>
      cases h
      rfl
  | cons model rest ih =>
      rcases stepModels_cons_eq_ok h with
        ⟨-, report, universes₁, mid, reports', rest', hrefresh, hlater, rfl, rfl⟩ |
        ⟨-, rest', hlater, rfl⟩
      · obtain ⟨-, -, -, -, hfirst⟩ := refreshModel_eq_ok hrefresh
        rw [ih hlater, hfirst, List.flatMap_cons]
        simp only [ActiveUniverses.addAll, List.foldl_append]
      · exact ih hlater

/-- A step puts the universes of its reports in force. -/
theorem universes_step {manager manager' : SelectionManager} {e after : Engine}
    {reports : List RefreshReport} (h : manager.step e = .ok (reports, manager', after)) :
    manager'.universes = manager.universes.addAll (reports.flatMap (·.universes)) := by
  simp only [step, Halt.bind_eq_ok] at h
  obtain ⟨⟨reports', models, universes, last⟩, hmodels, h⟩ := h
  cases h
  exact universes_stepModels hmodels

end SelectionManager

namespace Resolutions

/-- A pull is at most one resolution. -/
theorem of_next {r : Refresh} {e after : Engine} {result : Option (Pull × Refresh)}
    (h : r.next e = .ok (result, after)) :
    Resolutions e (result.toList.map (·.1.attempt r.model r.context)) after := by
  cases result with
  | none =>
      obtain ⟨rfl, -⟩ := Refresh.next_eq_ok h
      exact .refl after
  | some found =>
      obtain ⟨-, behind, -, hresolve, -⟩ := Refresh.next_eq_ok h
      exact .cons (a := found.1.attempt r.model r.context) (resolve_iff.1 hresolve) (.refl after)

/-- A refresh that is pulled to its end resolves symbols. -/
theorem of_drain {r : Refresh} {e after : Engine} {pulls : List Pull}
    (h : r.drain e = .ok (pulls, after)) :
    Resolutions e (pulls.map (·.attempt r.model r.context)) after := by
  rw [Refresh.drain_eq, Halt.bind_eq_ok] at h
  obtain ⟨⟨result, mid⟩, hnext, h⟩ := h
  have hfirst := of_next hnext
  match result, h with
  | none, h =>
      cases h
      exact hfirst
  | some (p, r'), h =>
      have hless := Refresh.left_next_lt hnext
      obtain ⟨-, behind, -, -, htaking⟩ := Refresh.next_eq_ok hnext
      rw [Halt.map_eq_ok] at h
      obtain ⟨⟨rest, last⟩, hdrain, h⟩ := h
      cases h
      have hrest := of_drain hdrain
      rw [htaking] at hrest
      exact hfirst.append hrest
termination_by r.left

/-- A refresh by a manager resolves the symbols of its model. -/
theorem of_refreshModel {now : Instant} {number : Nat} {model model' : SelectionModel}
    {universes universes' : ActiveUniverses} {e after : Engine} {report : RefreshReport}
    (h : SelectionManager.refreshModel number model now universes e =
      .ok (report, model', universes', after)) :
    Resolutions e (report.attempts model' (e.contextAt now)) after := by
  obtain ⟨rfl, -, -, hdrain, -⟩ := SelectionManager.refreshModel_eq_ok h
  have hgiven := of_drain hdrain
  rw [List.map_map] at hgiven
  exact hgiven

/-- A pass of a manager over some models resolves the symbols of those that are due, and its reports
hold the universes of these resolutions. -/
theorem of_stepModels {now : Instant} {number : Nat} {universes universes' : ActiveUniverses}
    {e after : Engine} {models models' : List SelectionModel} {reports : List RefreshReport}
    (h : SelectionManager.stepModels now number universes e models =
      .ok (reports, models', universes', after))
    {find : Nat → Option SelectionModel}
    (hfind : ∀ i m, models'[i]? = some m → find (number + i) = some m) :
    Resolutions e (SelectionManager.attempts find (e.contextAt now) reports) after ∧
      (SelectionManager.attempts find (e.contextAt now) reports).flatMap (·.universes) =
        reports.flatMap (·.universes) := by
  induction models generalizing number universes e reports models' universes' after with
  | nil =>
      cases h
      exact ⟨.refl e, rfl⟩
  | cons model rest ih =>
      rcases SelectionManager.stepModels_cons_eq_ok h with
        ⟨-, report, universes₁, mid, reports', rest', hrefresh, hlater, rfl, rfl⟩ |
        ⟨-, rest', hlater, rfl⟩
      · have hrest : ∀ i m, rest'[i]? = some m → find (number + 1 + i) = some m := by
          intro i m hm
          rw [Nat.add_assoc, Nat.add_comm 1 i]
          exact hfind (i + 1) m hm
        obtain ⟨hresolved, huniverses⟩ := ih hlater hrest
        have hfirst := of_refreshModel hrefresh
        obtain ⟨-, hnumber, -⟩ := SelectionManager.refreshModel_eq_ok hrefresh
        have hmodel : find report.model = some (model.refreshed now) := by
          rw [hnumber]
          exact hfind 0 _ rfl
        have hcontext : mid.contextAt now = e.contextAt now := by
          rw [Engine.contextAt, hfirst.clock_defaults.2]
          rfl
        have hattempts : SelectionManager.attempts find (e.contextAt now) (report :: reports') =
            report.attempts (model.refreshed now) (e.contextAt now) ++
              SelectionManager.attempts find (e.contextAt now) reports' := by
          simp [SelectionManager.attempts, hmodel]
        rw [hcontext] at hresolved huniverses
        rw [hattempts, List.flatMap_append, huniverses, RefreshReport.universes_attempts]
        exact ⟨hfirst.append hresolved, rfl⟩
      · refine ih hlater fun i m hm => ?_
        rw [Nat.add_assoc, Nat.add_comm 1 i]
        exact hfind (i + 1) m hm

/-- A step of a manager resolves symbols, and its reports hold the universes of these
resolutions. -/
theorem of_step {manager manager' : SelectionManager} {e after : Engine}
    {reports : List RefreshReport} (h : manager.step e = .ok (reports, manager', after)) :
    Resolutions e
        (SelectionManager.attempts (manager'.models[·]?) (e.contextAt e.clock) reports) after ∧
      (SelectionManager.attempts (manager'.models[·]?) (e.contextAt e.clock) reports).flatMap
        (·.universes) = reports.flatMap (·.universes) := by
  simp only [SelectionManager.step, Halt.bind_eq_ok] at h
  obtain ⟨⟨reports', models, universes, last⟩, hmodels, h⟩ := h
  cases h
  exact of_stepModels hmodels fun i m hm => by rwa [Nat.zero_add]

end Resolutions

end FuturesChains
