import FuturesChains.Proofs.Selection.ChainIdentity

/-!
# Subscriptions of chain securities

Along every run of a host there is one data subscription for every registered chain, in the order of
registration: the one that the chain's security holds (`Engine.Subscribed`). It is on the terms of
the settings that the first model to resolve the chain worked with (`Engine.FoundedBy`), and later
resolutions leave it (`Registry.FeedsKeptBy`). `one_subscription_per_chain` joins the three: the
table of subscriptions and the registry correspond one to one, whatever failed on the way. All this
is for a construction service that leaves the table of subscriptions where it refuses a request, as
the service that refuses nothing and the one that refuses some roots do.
-/

namespace FuturesChains

/-- The subscription is on the terms of some settings. -/
structure Subscription.OnTerms (s : Subscription) (settings : UniverseSettings) : Prop where
  resolution : s.resolution = settings.resolution
  increment : s.increment? = settings.resolution.span?
  fillForward : s.fillForward = settings.fillForward
  extendedMarketHours : s.extendedMarketHours = settings.extendedMarketHours

/-- The subscriptions are those that the registered securities hold, in the order of registration,
each for the symbol under which its security is registered, and a refusal of the construction
service leaves them. -/
structure Engine.Subscribed (e : Engine) : Prop extends e.ChainKeyed where
  leaves : e.facilities.service.LeavesTable
  held : e.subscriptions.map some =
    e.registry.index.map fun entry => (e.registry.security? entry.2).map (·.subscription)
  owned : ∀ entry ∈ e.registry.index,
    (e.registry.security? entry.2).map (·.subscription.symbol) = some entry.1

/-- Every registered chain was first given by an attempt of the log, and its subscription is on the
terms of that attempt's settings; no attempt gave a chain that is not registered. -/
structure Engine.FoundedBy (e : Engine) (log : List Attempt) : Prop where
  founder : ∀ chain id, e.registry.find? chain = some id → ∃ a security,
    log.find? (·.gives chain) = some a ∧ e.registry.security? id = some security ∧
      security.subscription.OnTerms (a.model.effectiveSettings a.context)
  unfounded : ∀ chain, e.registry.find? chain = none → log.find? (·.gives chain) = none

/-- The securities of a registry hold the same subscriptions in a later one. -/
def Registry.FeedsKeptBy (r later : Registry) : Prop :=
  ∀ id, (r.security? id).isSome = true →
    (later.security? id).map (·.subscription) = (r.security? id).map (·.subscription)

@[simp] theorem Security.subscription_attach (filter : ContractFilter) (s : Security) :
    (s.attach filter).subscription = s.subscription := rfl

/-- The security of a request holds the subscription that it was made with. -/
theorem SecurityRequest.subscription_security (q : SecurityRequest) (subscription : Subscription) :
    (q.security subscription).subscription = subscription := by
  obtain ⟨-, -, -, -, hrun⟩ := Security.facts_run (.assembled q.symbol q.properties q.hours.hours
    q.hours.dataZone subscription) q.initializer
  unfold security
  split
  · exact hrun
  · exact hrun

namespace SubscriptionTable

/-- Where no two subscriptions are for one symbol, a subscription is the only one of its symbol. -/
theorem ofSymbol_of_mem {t : SubscriptionTable} (hnodup : (t.map (·.symbol)).Nodup)
    {s : Subscription} (hs : s ∈ t) : ofSymbol t s.symbol = [s] := by
  induction t with
  | nil => cases hs
  | cons head rest ih =>
      rw [List.map_cons, List.nodup_cons] at hnodup
      rcases List.mem_cons.1 hs with rfl | hs
      · have hrest : ofSymbol rest s.symbol = [] := by
          simp only [ofSymbol, List.filter_eq_nil_iff, decide_eq_true_eq]
          exact fun other hother heq => hnodup.1 (heq ▸ List.mem_map_of_mem hother)
        simpa [ofSymbol] using hrest
      · have hne : head.symbol ≠ s.symbol := fun heq => hnodup.1 (heq ▸ List.mem_map_of_mem hs)
        simpa [ofSymbol, hne] using ih hnodup.2 hs

theorem ofSymbol_eq_nil {t : SubscriptionTable} {symbol : Symbol}
    (h : symbol ∉ t.map (·.symbol)) : ofSymbol t symbol = [] := by
  simp only [ofSymbol, List.filter_eq_nil_iff, decide_eq_true_eq]
  exact fun s hs heq => h (heq ▸ List.mem_map_of_mem hs)

/-- A subscription for a symbol without one goes to the end of the table. -/
theorem add_of_symbol_notMem {t : SubscriptionTable} {s : Subscription}
    (h : s.symbol ∉ t.map (·.symbol)) : t.add s = (s, t ++ [s]) := by
  apply add_of_find?_eq_none
  rw [List.find?_eq_none]
  intro other hother hsame
  have hsymbol : s.symbol = other.symbol := by
    simp only [Subscription.sameData, Bool.and_eq_true, decide_eq_true_eq] at hsame
    exact hsame.1
  exact h (hsymbol ▸ List.mem_map_of_mem hother)

end SubscriptionTable

/-- A resolution that fails leaves the registry and the subscriptions, if the construction service
leaves the table where it refuses. -/
theorem Resolves.stores_of_error {m : SelectionModel} {ctx : SelectionContext} {e after : Engine}
    {s : Symbol} {error : SelectionError} (h : Resolves m ctx e s (.error error) after)
    (hservice : e.facilities.service.LeavesTable) :
    after.subscriptions = e.subscriptions ∧ after.registry = e.registry := by
  cases h with
  | invalidKind | unknown => exact ⟨rfl, rfl⟩
  | refused hours properties error table hkind hfind hmetadata hconstruct =>
      exact ⟨hservice.eq_of_construct hconstruct, rfl⟩

namespace Engine.Subscribed

theorem start {facilities : Facilities} (hservice : facilities.service.LeavesTable)
    (clock : Instant) : (Engine.start facilities clock).Subscribed where
  toChainKeyed := .start facilities clock
  leaves := hservice
  held := rfl
  owned := by simp [Engine.start, Registry.empty]

variable {e after : Engine}

/-- The subscriptions are for the registered symbols. -/
theorem symbols (h : e.Subscribed) :
    e.subscriptions.map (·.symbol) = e.registry.index.map (·.1) := by
  have hheld := congrArg (List.map (Option.map (·.symbol))) h.held
  have howned : e.registry.index.map (fun entry =>
      (e.registry.security? entry.2).map (·.subscription.symbol)) =
        e.registry.index.map (some ·.1) := List.map_congr_left h.owned
  simp only [List.map_map, Function.comp_def, Option.map_map, Option.map_some] at hheld
  rw [howned] at hheld
  refine (List.map_inj_right fun _ _ => Option.some.inj).1 ?_
  rw [List.map_map, List.map_map]
  exact hheld

/-- A chain without a security has no subscription, so its new one goes to the end of the table. -/
theorem security_of_construct (h : e.Subscribed) {m : SelectionModel} {ctx : SelectionContext}
    {chain : Symbol} {hours : HoursEntry} {properties : Properties} {security : Security}
    {table : SubscriptionTable} (hfind : e.registry.find? chain = none)
    (hconstruct : e.facilities.service.construct
      (m.chainRequest ctx e.facilities chain hours properties) e.subscriptions =
        (.ok security, table)) :
    table = e.subscriptions ++ [security.subscription] ∧ security.subscription.symbol = chain ∧
      security.subscription.OnTerms (m.effectiveSettings ctx) := by
  obtain ⟨-, -, rfl, rfl⟩ := ConstructionService.construct_eq_ok hconstruct
  have hfresh := Registry.find?_eq_none_iff.1 hfind
  rw [← h.symbols] at hfresh
  have hadd := SubscriptionTable.add_of_symbol_notMem
    (s := (m.chainRequest ctx e.facilities chain hours properties).subscription) hfresh
  rw [SecurityRequest.subscription_security, hadd]
  exact ⟨rfl, rfl, ⟨rfl, rfl, rfl, rfl⟩⟩

/-- A resolution keeps the correspondence. -/
theorem resolves (h : e.Subscribed) {m : SelectionModel} {ctx : SelectionContext} {s : Symbol}
    {outcome : Except SelectionError ChainUniverse}
    (hresolves : Resolves m ctx e s outcome after) : after.Subscribed where
  toChainKeyed := h.toChainKeyed.resolves hresolves
  leaves := by
    cases hresolves with
    | invalidKind | unknown | refused | reused | created => exact h.leaves
  held := by
    cases hresolves with
    | invalidKind | unknown => exact h.held
    | refused hours properties error table hkind hfind hmetadata hconstruct =>
        obtain rfl := h.leaves.eq_of_construct hconstruct
        exact h.held
    | reused id hkind hfind =>
        refine h.held.trans (List.map_congr_left fun entry _ => ?_)
        exact (Registry.map_security?_modify _ _ _ (Security.subscription_attach m.filter)).symm
    | created hours properties security table hkind hfind hmetadata hconstruct =>
        obtain ⟨rfl, -, -⟩ := h.security_of_construct hfind hconstruct
        have hold : ∀ entry ∈ e.registry.index,
            ((e.registry.extend (security.attach m.filter)).security? entry.2).map
                (·.subscription) =
              (e.registry.security? entry.2).map (·.subscription) := by
          intro entry hentry
          rw [Registry.security?_extend_of_isSome (h.isSome_security? hentry)]
        simp only [Engine.extend, Registry.index_extend, List.map_append, List.map_congr_left hold,
          h.held]
        simp
  owned := by
    cases hresolves with
    | invalidKind | unknown | refused => exact h.owned
    | reused id hkind hfind =>
        intro entry hentry
        have hview : ∀ s : Security,
            (s.attach m.filter).subscription.symbol = s.subscription.symbol := fun _ => rfl
        exact (Registry.map_security?_modify _ _ _ hview).trans (h.owned entry hentry)
    | created hours properties security table hkind hfind hmetadata hconstruct =>
        obtain ⟨-, hsymbol, -⟩ := h.security_of_construct hfind hconstruct
        intro entry hentry
        rcases List.mem_append.1 hentry with hold | hnew
        · rw [← h.owned entry hold, show (e.extend _ table).registry = e.registry.extend _ from rfl,
            Registry.security?_extend_of_isSome (h.isSome_security? hold)]
        · rw [List.mem_singleton] at hnew
          simp [hnew, Engine.extend, hsymbol, symbol_of_construct hconstruct]

/-- The subscriptions of a registered chain are the one that its security holds. -/
theorem ofSymbol_of_find? (h : e.Subscribed) {chain : Symbol} {id : SecurityId}
    {security : Security} (hfind : e.registry.find? chain = some id)
    (hsecurity : e.registry.security? id = some security) :
    e.subscriptions.ofSymbol chain = [security.subscription] := by
  have hmem := Registry.mem_of_find? hfind
  have hsymbol : security.subscription.symbol = chain := by
    simpa [hsecurity] using h.owned _ hmem
  have hheld : security.subscription ∈ e.subscriptions := by
    have hentry := List.mem_map_of_mem
      (f := fun entry => (e.registry.security? entry.2).map (·.subscription)) hmem
    rw [hsecurity, ← h.held] at hentry
    simpa using hentry
  have hnodup : (e.subscriptions.map (·.symbol)).Nodup := by
    rw [h.symbols]
    exact h.nodup
  rw [← hsymbol]
  exact SubscriptionTable.ofSymbol_of_mem hnodup hheld

/-- A symbol that is not registered has no subscription. -/
theorem ofSymbol_of_find?_eq_none (h : e.Subscribed) {chain : Symbol}
    (hfind : e.registry.find? chain = none) : e.subscriptions.ofSymbol chain = [] := by
  apply SubscriptionTable.ofSymbol_eq_nil
  rw [h.symbols]
  exact Registry.find?_eq_none_iff.1 hfind

/-- There are as many subscriptions as registered securities. -/
theorem length_subscriptions (h : e.Subscribed) : e.subscriptions.length = e.registry.size := by
  have hlength := congrArg List.length h.symbols
  rwa [List.length_map, List.length_map] at hlength

end Engine.Subscribed

/-- A resolution leaves the subscriptions that the securities hold. -/
theorem Resolves.feedsKeptBy {m : SelectionModel} {ctx : SelectionContext} {e after : Engine}
    {s : Symbol} {outcome : Except SelectionError ChainUniverse}
    (h : Resolves m ctx e s outcome after) : e.registry.FeedsKeptBy after.registry := by
  intro id hid
  cases h with
  | invalidKind | unknown | refused => rfl
  | reused other hkind hfind =>
      exact Registry.map_security?_modify _ _ _ (Security.subscription_attach m.filter)
  | created hours properties security table =>
      exact congrArg _ (Registry.security?_extend_of_isSome hid)

/-- A resolution registers no chain but that of its symbol, and only if it succeeds. The new
security's subscription is on the terms of the model's settings. -/
theorem Resolves.find?_of_find?_eq_none {m : SelectionModel} {ctx : SelectionContext}
    {e after : Engine} {s : Symbol} {outcome : Except SelectionError ChainUniverse}
    (h : Resolves m ctx e s outcome after) (hsub : e.Subscribed) {chain : Symbol} {id : SecurityId}
    (hnone : e.registry.find? chain = none) (hfind : after.registry.find? chain = some id) :
    (∃ u, outcome = .ok u) ∧ s.toCanonical = chain ∧ ∃ security,
      after.registry.security? id = some security ∧
        security.subscription.OnTerms (m.effectiveSettings ctx) := by
  cases h with
  | invalidKind | unknown | refused | reused => cases hnone.symm.trans hfind
  | created hours properties security table hkind hold hmetadata hconstruct =>
      simp only [Engine.extend, Registry.find?_extend, hnone, Option.none_or,
        Security.symbol_attach, symbol_of_construct hconstruct] at hfind
      split at hfind
      · rename_i hchain
        cases hfind
        exact ⟨⟨_, rfl⟩, hchain, _, Registry.security?_extend_length _ _,
          (hsub.security_of_construct hold hconstruct).2.2⟩
      · cases hfind

/-- A resolution goes on with the log. -/
theorem Engine.FoundedBy.resolves {e after : Engine} {log : List Attempt} (h : e.FoundedBy log)
    (hsub : e.Subscribed) {m : SelectionModel} {ctx : SelectionContext} {s : Symbol}
    {outcome : Except SelectionError ChainUniverse}
    (hresolves : Resolves m ctx e s outcome after) :
    after.FoundedBy (log ++ [⟨m, ctx, s, outcome⟩]) where
  founder := by
    intro chain id hfind
    cases hold : e.registry.find? chain with
    | some old =>
        -- a chain that is registered keeps its founder, and its security the subscription
        obtain ⟨a, security, ha, hsecurity, hterms⟩ := h.founder chain old hold
        obtain rfl : old = id := Option.some.inj ((hresolves.keptBy _ _ hold).symm.trans hfind)
        have hkept := hresolves.feedsKeptBy old (by rw [hsecurity]; rfl)
        rw [hsecurity] at hkept
        obtain ⟨security', hsecurity', hsame⟩ := Option.map_eq_some_iff.1 hkept
        refine ⟨a, security', ?_, hsecurity', by rwa [hsame]⟩
        rw [List.find?_append, ha]
        rfl
    | none =>
        obtain ⟨hok, hchain, security, hsecurity, hterms⟩ :=
          hresolves.find?_of_find?_eq_none hsub hold hfind
        refine ⟨⟨m, ctx, s, outcome⟩, security, ?_, hsecurity, hterms⟩
        rw [List.find?_append, h.unfounded chain hold, Option.none_or]
        exact List.find?_cons_of_pos (Attempt.gives_iff.2 ⟨hok, hchain⟩)
  unfounded := by
    intro chain hnone
    have hold : e.registry.find? chain = none := by
      cases hold : e.registry.find? chain with
      | none => rfl
      | some id => rw [hresolves.keptBy _ _ hold] at hnone; cases hnone
    rw [List.find?_append, h.unfounded chain hold, Option.none_or, List.find?_eq_none]
    intro a ha hgives
    rw [List.mem_singleton] at ha
    subst ha
    obtain ⟨⟨u, rfl⟩, rfl⟩ := Attempt.gives_iff.1 hgives
    have hfind := hresolves.find?_given
    rw [hresolves.chain_eq, hnone] at hfind
    cases hfind

namespace Host

/-- A run of a fresh host keeps the correspondence and the founders. -/
theorem run_subscribed {facilities : Facilities} {clock : Instant} {actions : List HostAction}
    {given : List ChainUniverse} {after : Host} (hservice : facilities.service.LeavesTable)
    (hrun : (start facilities clock).run actions = .ok (given, after)) :
    after.engine.Subscribed ∧
      after.engine.FoundedBy ((start facilities clock).history actions) := by
  refine keep_history (P := fun log e => e.Subscribed ∧ e.FoundedBy log) ?_ ?_ hrun ?_
  · rintro log ⟨m, ctx, s, outcome⟩ e after ⟨hsub, hfounded⟩ hresolves
    exact ⟨hsub.resolves hresolves, hfounded.resolves hsub hresolves⟩
  · rintro log e clock defaults ⟨hsub, hfounded⟩
    exact ⟨{ hsub with }, { hfounded with }⟩
  · refine ⟨.start hservice clock, ?_, fun _ _ => rfl⟩
    intro chain id hfind
    cases hfind

/-- A run leaves the subscriptions that the securities hold. -/
theorem run_feedsKeptBy {h after : Host} {actions : List HostAction} {given : List ChainUniverse}
    (hrun : h.run actions = .ok (given, after)) :
    h.engine.registry.FeedsKeptBy after.engine.registry := by
  refine keep_history (P := fun _ e => h.engine.registry.FeedsKeptBy e.registry) ?_
    (fun _ _ _ _ => id) hrun fun _ _ => rfl
  intro log a e after hkept hresolves id hid
  have hmid := hkept id hid
  have hsome : (e.registry.security? id).isSome = true := by
    rw [← Option.isSome_map, hmid, Option.isSome_map]
    exact hid
  exact (hresolves.feedsKeptBy id hsome).trans hmid

end Host

/-- A run of any actions on a fresh engine leaves one subscription for every registered chain and no
others: the subscriptions of a chain are the one that its security holds. Its terms are those of the
settings that the first model to resolve the chain had, else of the engine's defaults at that
resolution, and it stays the same however the run goes on. A resolution that fails leaves nothing
behind. The construction service leaves the table of subscriptions where it refuses a request. -/
theorem one_subscription_per_chain {facilities : Facilities} {clock : Instant} {mid last : Host}
    {first later : List HostAction} {given more : List ChainUniverse}
    (hservice : facilities.service.LeavesTable)
    (hfirst : (Host.start facilities clock).run first = .ok (given, mid))
    (hlater : mid.run later = .ok (more, last)) :
    last.engine.subscriptions.length = last.engine.registry.size ∧
      (∀ chain id, last.engine.registry.find? chain = some id → ∃ security founder,
        last.engine.registry.security? id = some security ∧
          last.engine.subscriptions.ofSymbol chain = [security.subscription] ∧
          ((Host.start facilities clock).history (first ++ later)).find? (·.gives chain) =
            some founder ∧
          security.subscription.OnTerms
            (founder.model.settings.getD founder.context.defaults.settings)) ∧
      (∀ chain, last.engine.registry.find? chain = none →
        last.engine.subscriptions.ofSymbol chain = []) ∧
      (∀ chain, mid.engine.registry.find? chain ≠ none →
        last.engine.subscriptions.ofSymbol chain = mid.engine.subscriptions.ofSymbol chain) ∧
      ∀ (m : SelectionModel) (ctx : SelectionContext) (s : Symbol) (error : SelectionError)
        (after : Engine), m.resolve ctx last.engine s = .ok (.error error, after) →
          after.subscriptions = last.engine.subscriptions ∧
            after.registry = last.engine.registry := by
  have hrun := Host.run_append hfirst hlater
  obtain ⟨hmid, -⟩ := Host.run_subscribed hservice hfirst
  obtain ⟨hsub, hfounded⟩ := Host.run_subscribed hservice hrun
  refine ⟨hsub.length_subscriptions, ?_, fun chain => hsub.ofSymbol_of_find?_eq_none, ?_, ?_⟩
  · intro chain id hfind
    obtain ⟨founder, security, hfounder, hsecurity, hterms⟩ := hfounded.founder chain id hfind
    exact ⟨security, founder, hsecurity, hsub.ofSymbol_of_find? hfind hsecurity, hfounder, hterms⟩
  · intro chain hregistered
    obtain ⟨id, hfind⟩ := Option.ne_none_iff_exists'.1 hregistered
    obtain ⟨-, -, security, hsecurity, -⟩ := hmid.of_find? hfind
    obtain ⟨-, hkept, -⟩ := Host.run_registry hlater hmid.toChainKeyed
    have hfeed := Host.run_feedsKeptBy hlater id (by rw [hsecurity]; rfl)
    rw [hsecurity, Option.map_some] at hfeed
    obtain ⟨security', hsecurity', hsame⟩ := Option.map_eq_some_iff.1 hfeed
    rw [hmid.ofSymbol_of_find? hfind hsecurity, ← hsame]
    exact hsub.ofSymbol_of_find? (hkept chain id hfind) hsecurity'
  · intro m ctx s error after hresolve
    exact (resolve_iff.1 hresolve).stores_of_error hsub.leaves

/-- Crude oil is registered by a model that asks for bars of four hours and no fill of gaps. It
keeps them when another model resolves it with the defaults, which are daily bars by then. Natural
gas, which is refused, and gasoline, whose lots have no size, leave nothing. -/
theorem one_subscription_per_chain_crude_oil :
    let oil : Symbol := .undated "CL" .future .nymex
    let gas : Symbol := .undated "NG" .future .nymex
    let gasoline : Symbol := .undated "RB" .future .nymex
    let plan (symbols : List Symbol) (settings : Option UniverseSettings) : ModelPlan :=
      ⟨(⟨60⟩ : Span), .standing symbols, settings, none, .frontMonth 90⟩
    let own : UniverseSettings :=
      { UniverseSettings.standard with resolution := .hours 4, fillForward := false }
    let facilities : Facilities := { Facilities.traded (.refusing ["NG"] ["no data"]) with
      properties := contractSpecs.insert .nymex (some "RB") .future
        { contractSpec "RBOB Gasoline" .one .one with lotSize := .ofUnits 0 0 } }
    ∃ given mid more last, ∃ security : Security,
      (Host.start facilities default).run
          [.hold (plan [.future "CL" .nymex default, gas] (some own)),
            .refresh 0 ⟨default, .standard⟩, .pull 0] = .ok (given, mid) ∧
        mid.run [.setDefaultSettings { UniverseSettings.standard with resolution := .daily },
          .manage (plan [oil, gasoline] none), .step, .pull 0] = .ok (more, last) ∧
        last.engine.subscriptions.length = last.engine.registry.size ∧
        last.engine.registry.index = [(oil, ⟨0⟩)] ∧
        last.engine.subscriptions.ofSymbol oil = [security.subscription] ∧
        security.subscription.resolution = .hours 4 ∧
        security.subscription.increment? = some ⟨14400⟩ ∧
        security.subscription.fillForward = false ∧
        last.engine.subscriptions.ofSymbol gas = [] ∧
        last.engine.subscriptions.ofSymbol gasoline = [] := by
  intro oil gas gasoline plan own facilities
  let first : List HostAction := [.hold (plan [.future "CL" .nymex default, gas] (some own)),
    .refresh 0 ⟨default, .standard⟩, .pull 0]
  let later : List HostAction :=
    [.setDefaultSettings { UniverseSettings.standard with resolution := .daily },
      .manage (plan [oil, gasoline] none), .step, .pull 0]
  have hrun : ((Host.start facilities default).run first >>= fun start =>
      (start.2.run later).map fun last => last.2.engine.registry.index) = .ok [(oil, ⟨0⟩)] := by
    decide +kernel
  have hhistory : (((Host.start facilities default).history (first ++ later)).find?
      (·.gives oil)).map (·.model.settings) = some (some own) := by
    decide +kernel
  rw [Halt.bind_eq_ok] at hrun
  obtain ⟨⟨given, mid⟩, hfirst, hrun⟩ := hrun
  rw [Halt.map_eq_ok] at hrun
  obtain ⟨⟨more, last⟩, hlater, hindex⟩ := hrun
  obtain ⟨hlength, hregistered, hothers, -, -⟩ := one_subscription_per_chain
    (ConstructionService.refusing_leavesTable ["NG"] ["no data"]) hfirst hlater
  have hfind : ∀ chain, last.engine.registry.find? chain =
      ([(oil, (⟨0⟩ : SecurityId))].find? (·.1 = chain)).map (·.2) := by
    intro chain
    rw [← hindex]
    rfl
  obtain ⟨security, founder, -, hfeed, hfounder, hterms⟩ :=
    hregistered oil ⟨0⟩ ((hfind oil).trans (by decide))
  rw [hfounder] at hhistory
  have hsettings : founder.model.settings = some own := Option.some.inj hhistory
  rw [hsettings] at hterms
  exact ⟨given, mid, more, last, security, hfirst, hlater, hlength, hindex, hfeed,
    hterms.resolution, hterms.increment, hterms.fillForward,
    hothers gas ((hfind gas).trans (by decide)),
    hothers gasoline ((hfind gasoline).trans (by decide))⟩

end FuturesChains
