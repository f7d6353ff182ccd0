import FuturesChains.Proofs.Selection.ActiveOrder
import FuturesChains.Proofs.Selection.ModelOrder

/-!
# Independent models on a host

Models are `Independent` over the times of some steps if they are apart at each of them, each model
being stamped by the steps before. Two hosts are `Host.Alike` if they differ in the order of their
models, in the identities of securities and in the order of registrations only. The steps, the clock
and the defaults keep alike hosts alike (`Host.act_alike`, and `Host.run_alike` for a run), and in
alike hosts the same universes are in force in the same order (`Host.Alike.activeContents_eq`).
`independent_models_commute` says what this means for a host that is reached in any way: its
independent models may be managed in any order, and a model that is replaced in a step, by one that
fails or not, is not noticed by the others.
-/

namespace FuturesChains

/-- The action steps the manager, or it sets the clock or the defaults. -/
def HostAction.drives : HostAction → Bool
  | .step | .setDefaultSettings _ | .setDefaultInitializer _ | .setClock _ | .advance _ => true
  | _ => false

/-- Models that are stepped at some times in turn are apart at every one of them. -/
def Independent : List Instant → List SelectionModel → Prop
  | [], _ => True
  | now :: rest, models => Apart now models ∧ Independent rest (models.map (·.afterStep now))

/-- Independence is decided one step after the other. -/
instance decidableIndependent :
    (times : List Instant) → (models : List SelectionModel) → Decidable (Independent times models)
  | [], _ => isTrue trivial
  | now :: rest, models =>
    @instDecidableAnd (Apart now models) _ _
      (decidableIndependent rest (models.map (·.afterStep now)))

theorem SelectionModel.map_afterSteps_append (models : List SelectionModel)
    (times later : List Instant) :
    (models.map (·.afterSteps times)).map (·.afterSteps later) =
      models.map (·.afterSteps (times ++ later)) := by
  simp [afterSteps, List.foldl_append, Function.comp_def]

/-- Independent models are so at the later times as well. -/
theorem Independent.of_append {times later : List Instant} {models : List SelectionModel}
    (h : Independent (times ++ later) models) :
    Independent later (models.map (·.afterSteps times)) := by
  induction times generalizing models with
  | nil => simpa [SelectionModel.afterSteps] using h
  | cons now rest ih =>
      have hrest := ih h.2
      rwa [show models.map (·.afterStep now) = models.map (·.afterSteps [now]) from rfl,
        SelectionModel.map_afterSteps_append] at hrest

namespace Host

/-- The number of universes that the action gave if it is a step. -/
def stepCount (h : Host) : HostAction → List Nat
  | .step =>
    match h.manager.step h.engine with
    | .error _ => []
    | .ok (reports, _, _) => [SelectionManager.emitted reports]
  | _ => []

/-- The numbers of universes that the steps among some actions gave, in order. -/
def stepCounts (h : Host) : List HostAction → List Nat
  | [] => []
  | action :: rest =>
    h.stepCount action ++ match h.act action with
      | .error _ => []
      | .ok (_, h) => h.stepCounts rest

/-- Two hosts are alike up to the order of their models, the identities of securities and the order
of registrations. -/
structure Alike (h g : Host) : Prop extends
    inForce : AgreesOn Everywhere h.manager.universes h.engine g.manager.universes g.engine where
  clock : g.engine.clock = h.engine.clock
  calls : g.engine.tally.calls = h.engine.tally.calls
  models : h.manager.models.Perm g.manager.models

variable {h g after : Host} {action : HostAction} {given : List ChainUniverse}

/-- The models after an action that drives them. -/
theorem act_models_of_drives (hact : h.act action = .ok (given, after))
    (hdrives : action.drives = true) (hschedule : h.OnSchedule) :
    after.manager.models =
      h.manager.models.map (·.afterSteps (action.stepTimes h.engine.clock)) := by
  cases action with
  | step =>
      obtain ⟨reports, manager, engine, hstep, -, rfl⟩ := act_step_iff.1 hact
      exact (SelectionManager.step_eq_ok hstep hschedule.managed).1
  | setDefaultSettings | setDefaultInitializer | setClock | advance =>
      cases hact
      simp [HostAction.stepTimes, SelectionModel.afterSteps]
  | _ => cases hdrives

/-- The clock after an action. -/
theorem act_clock (hact : h.act action = .ok (given, after)) :
    after.engine.clock = action.clockAfter h.engine.clock := by
  obtain ⟨-, mid, -, hengine⟩ := act_engine hact
  rw [hengine]

/-- Alike hosts stay so when the same clock and the same defaults are set in both. -/
theorem Alike.set (halike : h.Alike g) {clock clock' : Instant}
    {defaults defaults' : EngineDefaults} (hclock : clock' = clock)
    (hdefaults : defaults' = defaults) :
    Alike { h with engine := { h.engine with clock, defaults } }
      { g with engine := { g.engine with clock := clock', defaults := defaults' } } where
  left := { halike.left with }
  right := { halike.right with }
  facilities := halike.facilities
  defaults := hdefaults
  registered := halike.registered
  active := halike.active
  clock := hclock
  calls := halike.calls
  models := halike.models

/-- An action that drives independent models leaves alike hosts alike, and a step counts the same in
both. -/
theorem act_alike (halike : h.Alike g) (hact : h.act action = .ok (given, after))
    (hdrives : action.drives = true)
    (hapart : action = .step → Apart h.engine.clock h.manager.models) :
    ∃ given' after', g.act action = .ok (given', after') ∧ after.Alike after' ∧
      g.stepCount action = h.stepCount action := by
  cases action with
  | step =>
      have hclock := act_clock hact
      obtain ⟨reports, manager, engine, hstep, -, rfl⟩ := act_step_iff.1 hact
      have hpass := SelectionManager.step_iff.1 hstep
      obtain ⟨reports', models', b, f, hpass', hsame, hagree, hcalls⟩ :=
        SelectionManager.stepModels_perm halike.models (hapart rfl) halike.inForce hpass 0
      have hstep' : g.manager.step g.engine = .ok (reports', ⟨models', b⟩, f) := by
        rwa [SelectionManager.step_iff, halike.clock]
      have hact' := act_step_iff.2 ⟨reports', ⟨models', b⟩, f, hstep', rfl, rfl⟩
      refine ⟨_, _, hact', ⟨hagree, ?_, ?_, ?_⟩, ?_⟩
      · rw [act_clock hact', hclock, halike.clock]
      · have := halike.calls
        simp only at hcalls ⊢
        omega
      · rw [SelectionManager.models_stepModels hpass, SelectionManager.models_stepModels hpass']
        exact halike.models.map _
      · simp only [stepCount, hstep, hstep', SelectionManager.emitted_eq_of_perm hsame]
  | setDefaultSettings settings =>
      cases hact
      exact ⟨_, _, rfl, halike.set halike.clock
        (congrArg ({ · with settings }) halike.defaults), rfl⟩
  | setDefaultInitializer initializer =>
      cases hact
      exact ⟨_, _, rfl, halike.set halike.clock
        (congrArg ({ · with initializer }) halike.defaults), rfl⟩
  | setClock time =>
      cases hact
      exact ⟨_, _, rfl, halike.set rfl halike.defaults, rfl⟩
  | advance d =>
      cases hact
      exact ⟨_, _, rfl, halike.set (congrArg (·.advance d) halike.clock) halike.defaults, rfl⟩
  | _ => cases hdrives

/-- A run that drives independent models leaves alike hosts alike, by induction on its actions. -/
theorem run_alike {actions : List HostAction} (halike : h.Alike g)
    (hrun : h.run actions = .ok (given, after)) (hdrives : ∀ action ∈ actions, action.drives = true)
    (hh : h.OnSchedule) (hg : g.OnSchedule)
    (hindependent : Independent (stepTimes h.engine.clock actions) h.manager.models) :
    ∃ given' after', g.run actions = .ok (given', after') ∧ after.Alike after' ∧
      g.stepCounts actions = h.stepCounts actions ∧
      after.manager.models =
        h.manager.models.map (·.afterSteps (stepTimes h.engine.clock actions)) ∧
      after'.manager.models =
        g.manager.models.map (·.afterSteps (stepTimes h.engine.clock actions)) := by
  induction actions generalizing h g given with
  | nil =>
      cases hrun
      exact ⟨[], g, rfl, halike, rfl, by simp [stepTimes, SelectionModel.afterSteps],
        by simp [stepTimes, SelectionModel.afterSteps]⟩
  | cons action rest ih =>
      obtain ⟨hfirst, hrest⟩ := List.forall_mem_cons.1 hdrives
      obtain ⟨first, mid, more, hact, hlater, rfl, -⟩ := run_cons_eq_ok hrun
      have hapart : action = .step → Apart h.engine.clock h.manager.models := by
        rintro rfl
        exact hindependent.1
      obtain ⟨first', mid', hact', hmid, hcount⟩ := act_alike halike hact hfirst hapart
      have hmodels := act_models_of_drives hact hfirst hh
      have hmodels' := act_models_of_drives hact' hfirst hg
      have hclock := act_clock hact
      have hindependent' : Independent (stepTimes mid.engine.clock rest) mid.manager.models := by
        rw [hclock, hmodels]
        exact hindependent.of_append
      obtain ⟨more', after', hlater', hafter, hcounts, hlast, hlast'⟩ := ih hmid hlater hrest
        (act_models hact hh).1 (act_models hact' hg).1 hindependent'
      refine ⟨_, after', run_cons hact' hlater', hafter, ?_, ?_, ?_⟩
      · simp only [stepCounts, hact, hact', hcount, hcounts]
      · rw [hlast, hmodels, hclock, SelectionModel.map_afterSteps_append, stepTimes]
      · rw [hlast', hmodels', hclock, halike.clock, SelectionModel.map_afterSteps_append, stepTimes]

/-- What is in force, in order: every universe with the security that it holds, but for its
identity, and the contracts that are selected. -/
def activeContents (h : Host) : List (UniverseTerms × Option Security × List Symbol) :=
  h.manager.universes.chains.map fun entry =>
    (entry.current.terms, h.engine.registry.security? entry.current.security, entry.selected)

/-- What is in force is found chain by chain, in the order of the chains. -/
theorem Backed.activeContents_eq (hbacked : h.Backed) :
    h.activeContents.map some =
      (h.manager.universes.chains.map (·.chain)).map fun chain =>
        (h.manager.universes.terms? chain).map fun (terms, selected) =>
          (terms, h.engine.registry.registered? chain, selected) := by
  rw [activeContents, List.map_map, List.map_map]
  refine List.map_congr_left fun entry hentry => ?_
  have hfind : h.manager.universes.find? entry.chain = some entry :=
    find?_key_of_mem hbacked.ordered.nodup hentry
  have hheld : h.engine.registry.find? entry.chain = some entry.current.security :=
    hbacked.held entry hentry
  simp [ActiveUniverses.terms?, hfind, Registry.registered?, hheld]

/-- The same is in force in alike hosts, in the same order. -/
theorem Alike.activeContents_eq (halike : h.Alike g) (hh : h.Backed) (hg : g.Backed) :
    g.activeContents = h.activeContents := by
  have hchains : g.manager.universes.chains.map (·.chain) =
      h.manager.universes.chains.map (·.chain) := by
    refine hg.ordered.eq_of_mem_iff hh.ordered fun chain => ?_
    rw [← ActiveUniverses.contains_iff, ← ActiveUniverses.contains_iff,
      ActiveUniverses.contains_eq, ActiveUniverses.contains_eq, halike.active chain trivial]
  have hsome : g.activeContents.map some = h.activeContents.map some := by
    rw [hg.activeContents_eq, hh.activeContents_eq, hchains]
    refine List.map_congr_left fun chain _ => ?_
    rw [halike.active chain trivial, halike.registered chain trivial]
  exact (List.map_inj_right fun _ _ => Option.some.inj).1 hsome

/-- A fresh host stays steady along a run. -/
theorem run_steady {facilities : Facilities} {clock : Instant} {actions : List HostAction}
    (hdecides : facilities.service.AnswersRequest) (hleaves : facilities.service.LeavesTable)
    (hrun : (start facilities clock).run actions = .ok (given, after)) : after.engine.Steady :=
  keep_history (P := fun _ e => e.Steady)
    (fun _ _ _ _ hsteady hresolves => hsteady.resolves hresolves)
    (fun _ _ _ _ hsteady => { hsteady with }) hrun ⟨.start hleaves clock, hdecides⟩

/-- The host with other managed models. -/
def withModels (h : Host) (models : List SelectionModel) : Host :=
  { h with manager := { h.manager with models } }

/-- A host is alike with its models in another order. -/
theorem Alike.withModels {models : List SelectionModel} (hsteady : h.engine.Steady)
    (hperm : h.manager.models.Perm models) : h.Alike (h.withModels models) where
  inForce := .refl h.manager.universes hsteady
  clock := rfl
  calls := rfl
  models := hperm

end Host

/-- Independent models may be managed in any order, if the construction service decides by the
request alone and leaves the table of subscriptions where it refuses. Whatever was done before, a
run of steps and of changes of the clock and the defaults goes through in the other order as well,
and reaches the same: the models with the same times of refresh, the securities with the same
filters for all symbols, as many registrations, announced in some order, the subscriptions, the
universes in force, the number of calls of the construction service, and what every step counted.
Since the run may end anywhere this holds after each action.

And a model may be replaced in a step by one that names no chain of the others, whatever errors it
ends with: the other models are stamped as before, their reports say the same under the same
numbers, and the same is held for all chains that neither the old model nor the new one names. -/
theorem independent_models_commute {facilities : Facilities} {clock : Instant}
    {first : List HostAction} {given : List ChainUniverse} {h : Host}
    (hdecides : facilities.service.AnswersRequest) (hleaves : facilities.service.LeavesTable)
    (hfirst : (Host.start facilities clock).run first = .ok (given, h)) :
    (∀ models actions more last, h.manager.models.Perm models →
        (∀ action ∈ actions, action.drives = true) →
        Independent (Host.stepTimes h.engine.clock actions) h.manager.models →
        h.run actions = .ok (more, last) →
        ∃ more' last', (h.withModels models).run actions = .ok (more', last') ∧
          last.manager.models =
            h.manager.models.map (·.afterSteps (Host.stepTimes h.engine.clock actions)) ∧
          last'.manager.models =
            models.map (·.afterSteps (Host.stepTimes h.engine.clock actions)) ∧
          (∀ symbol, last'.engine.registry.registered? symbol =
            last.engine.registry.registered? symbol) ∧
          last'.engine.registry.size = last.engine.registry.size ∧
          last'.engine.registry.journal.Perm last.engine.registry.journal ∧
          List.Perm last'.engine.subscriptions last.engine.subscriptions ∧
          last'.activeContents = last.activeContents ∧
          last'.engine.tally = last.engine.tally ∧
          last'.engine.clock = last.engine.clock ∧
          last'.engine.defaults = last.engine.defaults ∧
          (h.withModels models).stepCounts actions = h.stepCounts actions) ∧
      ∀ before x behind y reports manager e, h.manager.models = before ++ x :: behind →
        Apart h.engine.clock (before ++ x :: behind) →
        Apart h.engine.clock (before ++ y :: behind) →
        (y.isDue h.engine.clock = true → ∃ pulls after,
          (y.refresh (h.engine.contextAt h.engine.clock)).1.drain h.engine =
            .ok (pulls, after)) →
        h.manager.step h.engine = .ok (reports, manager, e) →
        ∃ reports' manager' e',
          (h.withModels (before ++ y :: behind)).manager.step h.engine =
            .ok (reports', manager', e') ∧
          (∀ i, i ≠ before.length → manager'.models[i]? = manager.models[i]?) ∧
          SelectionManager.reportsBut before.length reports' =
            SelectionManager.reportsBut before.length reports ∧
          ∀ chain, chain ∉ x.dueChains h.engine.clock → chain ∉ y.dueChains h.engine.clock →
            e'.registry.registered? chain = e.registry.registered? chain ∧
              e'.subscriptions.ofSymbol chain = e.subscriptions.ofSymbol chain ∧
              manager'.universes.terms? chain = manager.universes.terms? chain := by
  have hsteady := Host.run_steady hdecides hleaves hfirst
  obtain ⟨hschedule, -⟩ := Host.run_models hfirst (Host.onSchedule_start facilities clock)
  have hbacked := Host.run_backed hfirst (.start facilities clock)
    (Host.backed_start facilities clock)
  constructor
  · intro models actions more last hperm hdrives hindependent hrun
    have hschedule' : (h.withModels models).OnSchedule :=
      ⟨hschedule.held, fun m hm => hschedule.managed m (hperm.mem_iff.2 hm)⟩
    obtain ⟨more', last', hrun', halike, hcounts, hmodels, hmodels'⟩ :=
      Host.run_alike (.withModels hsteady hperm) hrun hdrives hschedule hschedule' hindependent
    have hlast := Host.run_backed hrun hsteady.toChainKeyed hbacked
    have hlast' := Host.run_backed hrun' hsteady.toChainKeyed ⟨hbacked.ordered, hbacked.held⟩
    have hengines := halike.engines
    exact ⟨more', last', hrun', hmodels, hmodels', fun symbol => halike.registered symbol trivial,
      hengines.size_eq, hengines.journal_perm, hengines.subscriptions_perm,
      halike.activeContents_eq hlast hlast', hengines.tally_eq halike.calls, halike.clock,
      halike.defaults, hcounts⟩
  · intro before x behind y reports manager e hmodels hx hy hanswers hstep
    have hpass := SelectionManager.step_iff.1 hstep
    rw [hmodels] at hpass
    obtain ⟨reports', after', b, f, hpass', hreports, hagree⟩ :=
      SelectionManager.stepModels_replace hpass hsteady hx hy hanswers
    rw [Nat.zero_add] at hreports
    refine ⟨reports', ⟨after', b⟩, f, SelectionManager.step_iff.2 hpass', fun i hi => ?_, hreports,
      fun chain hxchain hychain => ?_⟩
    · rw [SelectionManager.models_stepModels hpass, SelectionManager.models_stepModels hpass',
        List.getElem?_map, List.getElem?_map, getElem?_of_ne x y hi]
    · have hregistered := hagree.registered chain ⟨hxchain, hychain⟩
      refine ⟨hregistered, ?_, hagree.active chain ⟨hxchain, hychain⟩⟩
      rw [hagree.left.ofSymbol_eq, hagree.right.ofSymbol_eq, hregistered]

/-- Crude oil, natural gas, which is refused, and gold are managed in two orders, over two steps an
hour apart with other default settings for the second. A model that fails after copper in the place
of the one for natural gas leaves crude oil and gold as they were. -/
theorem independent_models_commute_oil_gas_gold :
    let model (symbols : List Symbol) : SelectionModel :=
      .ofSelector (⟨3600⟩ : Span) (.standing symbols)
    let oil := model [.future "CL" .nymex default, .undated "CL" .future .nymex]
    let gas := model [.undated "NG" .future .nymex]
    let gold := model [.undated "GC" .future .comex]
    let copper := model [.undated "HG" .future .comex, .equity "CL" .nymex]
    let plan (m : SelectionModel) : ModelPlan := ⟨m.interval, m.selector, none, none, .identity⟩
    let actions : List HostAction := [.step, .setDefaultSettings
      { UniverseSettings.standard with resolution := .daily }, .advance (⟨3600⟩ : Span), .step]
    ∃ h more last more' last' reports manager e reports' manager' e',
      (Host.start (.traded (.refusing ["NG"] ["no data"])) default).run
          [.manage (plan oil), .manage (plan gas), .manage (plan gold)] = .ok ([], h) ∧
        h.run actions = .ok (more, last) ∧
        (h.withModels [gold, gas, oil]).run actions = .ok (more', last') ∧
        last'.activeContents = last.activeContents ∧ last'.engine.tally = ⟨4, 2⟩ ∧
        (h.withModels [gold, gas, oil]).stepCounts actions = [3, 3] ∧
        h.manager.step h.engine = .ok (reports, manager, e) ∧
        (h.withModels [oil, copper, gold]).manager.step h.engine = .ok (reports', manager', e') ∧
        SelectionManager.reportsBut 1 reports' = SelectionManager.reportsBut 1 reports ∧
        e'.registry.registered? (.undated "GC" .future .comex) =
          e.registry.registered? (.undated "GC" .future .comex) := by
  intro model oil gas gold copper plan actions
  let h : Host := ⟨.start (.traded (.refusing ["NG"] ["no data"])) default, [], [],
    ⟨[oil, gas, gold], .empty⟩⟩
  have hfirst : (Host.start (.traded (.refusing ["NG"] ["no data"])) default).run
      [.manage (plan oil), .manage (plan gas), .manage (plan gold)] = .ok ([], h) := rfl
  have hrun : (h.run actions).map (fun result => (result.2.engine.tally, h.stepCounts actions)) =
      .ok (⟨4, 2⟩, [3, 3]) := by
    decide +kernel
  obtain ⟨⟨more, last⟩, hrun, hresult⟩ := Halt.map_eq_ok.1 hrun
  obtain ⟨htally, hcounts⟩ := Prod.mk.inj hresult
  have hstep : (h.manager.step h.engine).map (fun _ => ()) = .ok () := by
    decide +kernel
  obtain ⟨⟨reports, manager, e⟩, hstep, -⟩ := Halt.map_eq_ok.1 hstep
  have hcopper : ((copper.refresh (h.engine.contextAt h.engine.clock)).1.drain h.engine).map
      (fun _ => ()) = .ok () := by
    decide +kernel
  obtain ⟨⟨pulls, after⟩, hcopper, -⟩ := Halt.map_eq_ok.1 hcopper
  obtain ⟨hcommute, hreplace⟩ := independent_models_commute
    (ConstructionService.refusing_answersRequest ["NG"] ["no data"])
    (ConstructionService.refusing_leavesTable ["NG"] ["no data"]) hfirst
  have hperm : [oil, gas, gold].Perm [gold, gas, oil] := (List.reverse_perm _).symm
  obtain ⟨more', last', hrun', -, -, -, -, -, -, hactive, htally', -, -, hcounts'⟩ :=
    hcommute [gold, gas, oil] actions more last hperm (by decide) (by decide +kernel) hrun
  obtain ⟨reports', manager', e', hstep', -, hreports, hchains⟩ :=
    hreplace [oil] gas [gold] copper reports manager e rfl (by decide +kernel) (by decide +kernel)
      (fun _ => ⟨pulls, after, hcopper⟩) hstep
  obtain ⟨hgold, -⟩ := hchains (.undated "GC" .future .comex) (by decide +kernel)
    (by decide +kernel)
  exact ⟨h, more, last, more', last', reports, manager, e, reports', manager', e', hfirst, hrun,
    hrun', hactive, htally'.trans htally, hcounts'.trans hcounts, hstep, hstep', hreports, hgold⟩

end FuturesChains
